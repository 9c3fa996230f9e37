import IsoTransport.Proofs.Assembly.Handover

/-!
A message belongs to the channel of its first frame for good, and only a push on that channel hands it over
(`Sound.push_owner`, `Sound.run_owns`).
-/

namespace IsoTransport.Engine

variable {n : Nat} {taken : MessageId → List Piece} {e s : Engine} {channel other : Channel}
  {index : FrameIndex} {segment : Segment} {payload : Bytes} {id : MessageId} {t : Transfer}

/-- There is a message of this identifier, on this channel. -/
def Owns (e : Engine) (channel : Channel) (id : MessageId) : Prop :=
  ∃ t, e.transfers[id]? = some t ∧ t.channel = channel

theorem Owns.unique (owns : e.Owns channel id) (owns' : e.Owns other id) : channel = other := by
  obtain ⟨t, found, rfl⟩ := owns
  obtain ⟨u, found', rfl⟩ := owns'
  rw [Option.some.inj (found.symm.trans found')]

theorem Owns.insert {u : Transfer} (owns : e.Owns channel id)
    (transfers : s.transfers = e.transfers.insert u.id u)
    (same : ∀ t, e.transfers[u.id]? = some t → u.channel = t.channel) : s.Owns channel id := by
  obtain ⟨t, found, rfl⟩ := owns
  rw [Owns, transfers]
  by_cases here : u.id = id
  · subst here
    exact ⟨u, Std.TreeMap.getElem?_insert_self, same t found⟩
  · exact ⟨t, by rw [Std.TreeMap.getElem?_insert, if_neg (by simpa using here)]; exact found, rfl⟩

theorem Owns.supersede (sound : Sound n taken e) (owns : e.Owns channel id) (on : Channel) :
    (e.supersede on).Owns channel id := by
  rcases e.supersede_cases on with same | ⟨u, bound, -, failed⟩
  · rw [same]
    exact owns
  · have present := (sound.bound?_eq.mp bound).1
    rw [failed]
    refine owns.insert (u := u.fail) rfl fun t found => ?_
    rw [← Option.some.inj (present.symm.trans found)]
    rfl

theorem Owns.target (sound : Sound n taken e) (owns : e.Owns other id)
    (few : countWith n segment < UInt32.size)
    (target : e.target? index channel segment = (some t, s)) : s.Owns other id := by
  cases segment with
  | consecutive number =>
    rw [target?, Prod.mk.injEq] at target
    rw [← target.2]
    exact owns
  | first declared =>
    rw [target?_first, Prod.mk.injEq] at target
    obtain ⟨-, rfl⟩ := target
    have unused := sound.nextId_unused few
    refine (owns.supersede sound channel).insert
      (u := { id := e.nextId, channel, firstFrame := index, declared })
      (start_frame e index channel declared).2.1 fun u found => ?_
    -- the new identifier is unused, also after an open message has been failed
    obtain ⟨v, old, -⟩ := sound.supersede_heading found
    rw [unused] at old
    exact absurd old.symm (Option.some_ne_none v)

theorem Owns.push (sound : Sound n taken e) (owns : e.Owns other id)
    (few : e.countAfter n (.push index channel segment payload) < UInt32.size) :
    (e.push index channel segment payload).2.Owns other id := by
  cases seen : e.visited[index]? with
  | some known =>
    rw [push_visited seen]
    exact owns
  | none =>
    rw [countAfter_push seen] at few
    rcases target : e.target? index channel segment with ⟨_ | t, s⟩
    · obtain ⟨-, -, rfl⟩ := target?_none target
      rw [push_orphan seen target]
      exact owns
    · obtain ⟨started, ready⟩ := sound.target few target
      obtain ⟨same, on, transfers, -⟩ := started.feed_maps ready index segment.number payload
      rw [push_target seen target]
      refine (owns.target sound few target).insert (by rw [same]; exact transfers) fun u found => ?_
      rw [same, ready.present] at found
      rw [on, ← Option.some.inj found, ready.on]

theorem Sound.run_owns {events : List Event} (sound : Sound n taken e) (owns : e.Owns channel id)
    (keeps : .reset ∉ events) (few : e.opened n events < UInt32.size) : (e.run events).Owns channel id := by
  induction events generalizing e n taken with
  | nil => exact owns
  | cons event events ih =>
    rw [List.mem_cons, not_or] at keeps
    have still := Nat.lt_of_le_of_lt (le_opened _ _ keeps.2) few
    obtain ⟨taken', sound'⟩ := sound.step event still
    refine ih sound' ?_ keeps.2 few
    cases event with
    | reset => exact absurd rfl keeps.1
    | setWindow window => exact owns
    | push index other segment payload => exact owns.push sound still

/-- A message that is handed over belongs to the channel of the frame that completes it. -/
theorem Sound.push_owner (sound : Sound n taken e) (fresh : e.visited[index]? = none)
    (few : countWith n segment < UInt32.size) {p : Placement} {bytes : Bytes} {declared : Nat}
    (answer : (e.push index channel segment payload).1 = .ok (.completed p bytes declared)) :
    (e.push index channel segment payload).2.Owns channel p.message := by
  rcases target : e.target? index channel segment with ⟨_ | t, s⟩
  · rw [push_orphan fresh target] at answer
    cases answer
  · obtain ⟨started, ready⟩ := sound.target few target
    obtain ⟨same, on, transfers, -⟩ := started.feed_maps ready index segment.number payload
    have delivered := feed_completed (push_target fresh target payload ▸ answer)
    rw [← push_target fresh target] at delivered
    obtain ⟨u, s', target', -, message⟩ := placed_first fresh (placement?_eq.mpr delivered.visited)
    rw [target, Prod.mk.injEq, Option.some.injEq] at target'
    rw [push_target fresh target, Owns, transfers, message, ← target'.1]
    exact ⟨_, Std.TreeMap.getElem?_insert_self, on⟩

/-- A message that is handed over somewhere in a run belongs to that channel at the end of the run. -/
theorem Sound.run_owner {before after : List Event} (sound : Sound n taken e)
    (first : e.FirstPasses (before ++ .push index channel segment payload :: after))
    (few : e.opened n (before ++ .push index channel segment payload :: after) < UInt32.size)
    {p : Placement} {bytes : Bytes} {declared : Nat}
    (answer : ((e.run before).push index channel segment payload).1 =
      .ok (.completed p bytes declared)) :
    (e.run (before ++ .push index channel segment payload :: after)).Owns channel p.message := by
  induction before generalizing e n taken with
  | nil =>
    obtain ⟨taken', n', sound', rest, few', -⟩ := sound.firstPass first few
    have fresh := first.head
    rw [List.nil_append, Engine.opened, countAfter_push fresh] at few
    have keeps : .reset ∉ after := fun member => first.ne_reset (List.mem_cons_of_mem _ member)
    have still := Nat.lt_of_le_of_lt (le_opened _ _ keeps) few
    exact sound'.run_owns (sound.push_owner fresh still answer) keeps few'
  | cons event before ih =>
    obtain ⟨i, c, g, b, rfl⟩ := first.cons_push
    obtain ⟨taken', n', sound', rest, few', -⟩ := sound.firstPass first few
    exact ih sound' rest few' answer

end IsoTransport.Engine
