import IsoTransport.Proofs.Assembly.Channels

/-!
The three records of a run tell the same: what has arrived, where each frame was placed, and which pieces
the messages have taken in. `ledger_run` gives it for every run without a reset.
-/

namespace IsoTransport

def Transfer.heading (t : Transfer) : Channel × FrameIndex × Nat := (t.channel, t.firstFrame, t.declared)

theorem Course.place_heading (t : Transfer) (window : Nat) (number : UInt8) (length : Nat) :
    (t.place window number length).2.heading = t.heading := by
  obtain ⟨-, channel, firstFrame, declared, -⟩ := Course.place_same t window number length
  rw [Transfer.heading, channel, firstFrame, declared]
  rfl

def Placement.extend (p : Placement) (index : FrameIndex) (payload : Bytes) (pieces : List Piece) :
    List Piece :=
  if p.verdict = .accepted then pieces ++ [p.piece index payload] else pieces

theorem Placement.subset_extend (p : Placement) (index : FrameIndex) (payload : Bytes)
    (pieces : List Piece) : pieces ⊆ p.extend index payload pieces := by
  unfold extend
  split
  · exact List.subset_append_left _ _
  · exact List.Subset.refl _

theorem Course.feed_taken (c : Course) (window : Nat) (index : FrameIndex) (number : UInt8)
    (payload : Bytes) :
    (c.feed window index number payload).2.taken =
      (c.transfer.place window number payload.length).1.extend index payload c.taken := by
  unfold Course.feed Placement.extend
  dsimp only
  split <;> rename_i verdict <;> simp [verdict]

theorem Course.feed_new (id : MessageId) (channel : Channel) (index : FrameIndex) (declared window : Nat)
    (payload : Bytes) :
    ∃ x ∈ (Course.feed { transfer := { id, channel, firstFrame := index, declared } } window index 0
      payload).2.taken, x.frame = index ∧ x.fragment = 0 := by
  have opened : Course.Open { transfer := { id, channel, firstFrame := index, declared } } :=
    ⟨rfl, Transfer.counts_new .., .inl rfl⟩
  have free : Piece.rounds [] ((0 : UInt8).toNat % 16) ≠ Transfer.roundLimit := by decide
  have near : Transfer.nextFragment [] 0 ≤ Piece.highest [] + window := Nat.zero_le _
  rw [Course.feed_accepted opened free near]
  exact ⟨_, List.mem_append_right _ (List.mem_singleton_self _), rfl, rfl⟩

namespace Engine

variable {events : List Event} {taken : MessageId → List Piece} {index : FrameIndex} {channel : Channel}
  {segment : Segment} {payload : Bytes} {visited : Std.TreeMap FrameIndex (Option Placement)}

/-! ### Arrivals -/

theorem firstArrival?_mono {a : Arrival} (arrived : firstArrival? events index = some a) (event : Event) :
    firstArrival? (events ++ [event]) index = some a := by
  rw [firstArrival?_concat, arrived, Option.some_or]

theorem firstArrival?_push_self (fresh : firstArrival? events index = none) :
    firstArrival? (events ++ [.push index channel segment payload]) index =
      some { channel, segment, payload } := by
  rw [firstArrival?_concat, fresh, Option.none_or, Event.arrival?, if_pos rfl]

theorem firstArrival?_push_other {other : FrameIndex} (different : index ≠ other) :
    firstArrival? (events ++ [.push index channel segment payload]) other =
      firstArrival? events other := by
  rw [firstArrival?_concat, Event.arrival?, if_neg different, Option.or_none]

/-! ### Placements and pieces -/

/-- A piece is what an accepted placement says of the frame that arrived first. -/
structure Recorded (events : List Event) (visited : Std.TreeMap FrameIndex (Option Placement))
    (id : MessageId) (x : Piece) (p : Placement) (a : Arrival) : Prop where
  visited : visited[x.frame]? = some (some p)
  arrived : firstArrival? events x.frame = some a
  message : p.message = id
  accepted : p.verdict = .accepted
  piece : x = p.piece x.frame a.payload

/-- The frames that arrived are those that have a record, and the pieces are those recorded. -/
structure Filed (events : List Event) (taken : MessageId → List Piece)
    (visited : Std.TreeMap FrameIndex (Option Placement)) : Prop where
  arrived (index : FrameIndex) : visited[index]? = none ↔ firstArrival? events index = none
  recorded {id : MessageId} {x : Piece} : x ∈ taken id → ∃ p a, Recorded events visited id x p a
  counted {index : FrameIndex} {p : Placement} : visited[index]? = some (some p) →
    p.verdict = .accepted → ∃ x ∈ taken p.message, x.frame = index

theorem filed_new : Filed [] (fun _ => []) ∅ where
  arrived index := by simp [firstArrival?]
  recorded member := absurd member List.not_mem_nil
  counted visited := by simp at visited

theorem Recorded.later {id : MessageId} {x : Piece} {p : Placement} {a : Arrival}
    (recorded : Recorded events visited id x p a) (event : Event) :
    Recorded (events ++ [event]) visited id x p a :=
  { recorded with arrived := firstArrival?_mono recorded.arrived event }

theorem Recorded.insert {id : MessageId} {x : Piece} {p : Placement} {a : Arrival}
    (recorded : Recorded events visited id x p a) (fresh : visited[index]? = none)
    (placed : Option Placement) : Recorded events (visited.insert index placed) id x p a := by
  refine { recorded with visited := ?_ }
  have different : index ≠ x.frame := by
    intro same
    have known := recorded.visited
    rw [← same, fresh] at known
    exact absurd known.symm (Option.some_ne_none _)
  rw [Std.TreeMap.getElem?_insert, if_neg (by simpa using different)]
  exact recorded.visited

theorem Filed.arrived_insert (filed : Filed events taken visited) (fresh : visited[index]? = none)
    (placed : Option Placement) (other : FrameIndex) :
    (visited.insert index placed)[other]? = none ↔
      firstArrival? (events ++ [.push index channel segment payload]) other = none := by
  by_cases here : index = other
  · subst here
    simp [firstArrival?_push_self ((filed.arrived index).mp fresh)]
  · rw [firstArrival?_push_other here, ← filed.arrived, Std.TreeMap.getElem?_insert,
      if_neg (by simpa using here)]

theorem Filed.skip (filed : Filed events taken visited) {event : Event}
    (known : ∀ index, visited[index]? = none → event.arrival? index = none) :
    Filed (events ++ [event]) taken visited where
  arrived index := by
    rw [firstArrival?_concat, Option.or_eq_none_iff, ← filed.arrived]
    exact ⟨fun unseen => ⟨unseen, known index unseen⟩, And.left⟩
  recorded member := by
    obtain ⟨p, a, recorded⟩ := filed.recorded member
    exact ⟨p, a, recorded.later event⟩
  counted := filed.counted

theorem Filed.orphan (filed : Filed events taken visited) (fresh : visited[index]? = none) :
    Filed (events ++ [.push index channel segment payload]) taken (visited.insert index none) where
  arrived := filed.arrived_insert fresh none
  recorded member := by
    obtain ⟨p, a, recorded⟩ := filed.recorded member
    exact ⟨p, a, (recorded.insert fresh none).later _⟩
  counted := by
    intro other p placed accepted
    rcases lookup_insert placed with ⟨-, nothing⟩ | ⟨-, old⟩
    · exact absurd nothing.symm (Option.some_ne_none p)
    · exact filed.counted old accepted

/-- A frame that is placed for the first time is recorded together with its piece. -/
theorem Filed.place (filed : Filed events taken visited) (fresh : visited[index]? = none)
    (channel : Channel) (segment : Segment) (payload : Bytes) (p : Placement) :
    Filed (events ++ [.push index channel segment payload])
      (Function.update taken p.message (p.extend index payload (taken p.message)))
      (visited.insert index (some p)) where
  arrived := filed.arrived_insert fresh (some p)
  recorded := by
    intro id x member
    by_cases old : x ∈ taken id
    · obtain ⟨q, a, recorded⟩ := filed.recorded old
      exact ⟨q, a, (recorded.insert fresh _).later _⟩
    · rw [Function.update_apply] at member
      split at member
      · rename_i here
        subst here
        unfold Placement.extend at member
        split at member
        · rename_i accepted
          rw [List.mem_append, or_iff_right old, List.mem_singleton] at member
          subst member
          exact ⟨p, _, Std.TreeMap.getElem?_insert_self,
            firstArrival?_push_self ((filed.arrived index).mp fresh), rfl, accepted, rfl⟩
        · exact absurd member old
      · exact absurd member old
  counted := by
    intro other q placed accepted
    rcases lookup_insert placed with ⟨rfl, new⟩ | ⟨-, old⟩
    · obtain rfl := Option.some.inj new
      rw [Function.update_self, Placement.extend, if_pos accepted]
      exact ⟨_, List.mem_append_right _ (List.mem_singleton_self _), rfl⟩
    · obtain ⟨x, member, frame⟩ := filed.counted old accepted
      refine ⟨x, ?_, frame⟩
      rw [Function.update_apply]
      split
      · rename_i same
        rw [same] at member
        exact p.subset_extend index payload _ member
      · exact member

/-! ### Messages and their first frames -/

/-- The first frame of the message declared its length, and is its fragment zero. -/
def Begun (events : List Event) (pieces : List Piece) (t : Transfer) : Prop :=
  (∃ payload, firstArrival? events t.firstFrame =
    some { channel := t.channel, segment := .first t.declared, payload }) ∧
  ∃ x ∈ pieces, x.frame = t.firstFrame ∧ x.fragment = 0

theorem Begun.mono {pieces pieces' : List Piece} {t u : Transfer} (begun : Begun events pieces t)
    (heading : u.heading = t.heading) (more : pieces ⊆ pieces') (event : Event) :
    Begun (events ++ [event]) pieces' u := by
  obtain ⟨⟨payload, arrived⟩, x, member, first⟩ := begun
  simp only [Transfer.heading, Prod.mk.injEq] at heading
  obtain ⟨channel, firstFrame, declared⟩ := heading
  rw [Begun, channel, firstFrame, declared]
  exact ⟨⟨payload, firstArrival?_mono arrived event⟩, x, more member, first⟩

theorem begun_new {pieces : List Piece} {t : Transfer} {declared : Nat}
    (fresh : firstArrival? events index = none) (heading : t.heading = (channel, index, declared))
    (zero : ∃ x ∈ pieces, x.frame = index ∧ x.fragment = 0) :
    Begun (events ++ [.push index channel (.first declared) payload]) pieces t := by
  simp only [Transfer.heading, Prod.mk.injEq] at heading
  obtain ⟨on, firstFrame, length⟩ := heading
  rw [Begun, on, firstFrame, length]
  exact ⟨⟨payload, firstArrival?_push_self fresh⟩, zero⟩

variable {n : Nat} {e s : Engine} {t : Transfer}

theorem Sound.supersede_heading (sound : Sound n taken e) {id : MessageId}
    (found : (e.supersede channel).transfers[id]? = some t) :
    ∃ u, e.transfers[id]? = some u ∧ t.heading = u.heading := by
  rcases supersede_left found with old | ⟨u, bound, rfl, rfl⟩
  · exact ⟨t, old, rfl⟩
  · exact ⟨u, (sound.bound?_eq.mp bound).1, rfl⟩

/-- The messages when one is next to be fed: it may be new, and those that were there keep their heading. -/
theorem Sound.target_transfers (sound : Sound n taken e)
    (target : e.target? index channel segment = (some t, s)) {id : MessageId} {u : Transfer}
    (found : s.transfers[id]? = some u) :
    (∃ declared, segment = .first declared ∧
      t = { id := e.nextId, channel, firstFrame := index, declared } ∧ id = t.id ∧ u = t) ∨
      ∃ v, e.transfers[id]? = some v ∧ u.heading = v.heading := by
  cases segment with
  | consecutive number =>
    rw [target?, Prod.mk.injEq] at target
    rw [← target.2] at found
    exact .inr ⟨u, found, rfl⟩
  | first declared =>
    rw [target?_first, Prod.mk.injEq, Option.some.injEq] at target
    obtain ⟨rfl, rfl⟩ := target
    rw [(start_frame e index channel declared).2.1] at found
    rcases lookup_insert found with ⟨rfl, rfl⟩ | ⟨-, old⟩
    · exact .inl ⟨declared, rfl, rfl, rfl, rfl⟩
    · exact .inr (sound.supersede_heading old)

/-! ### The ledger -/

/-- The engine has kept its books over these events. -/
structure Ledger (n : Nat) (events : List Event) (taken : MessageId → List Piece) (e : Engine) : Prop where
  sound : Sound n taken e
  filed : Filed events taken e.visited
  begun {id : MessageId} {t : Transfer} : e.transfers[id]? = some t → Begun events (taken id) t

theorem ledger_new (window : Nat) : Ledger 0 [] (fun _ => []) { window } where
  sound := sound_new window
  filed := filed_new
  begun found := by simp at found

theorem Ledger.skip (ledger : Ledger n events taken e) {event : Event}
    (known : ∀ index, e.visited[index]? = none → event.arrival? index = none) :
    Ledger n (events ++ [event]) taken e where
  sound := ledger.sound
  filed := ledger.filed.skip known
  begun found := (ledger.begun found).mono rfl (List.Subset.refl _) event

theorem Ledger.feed (ledger : Ledger n events taken e) (fresh : e.visited[index]? = none)
    (few : countWith n segment < UInt32.size)
    (target : e.target? index channel segment = (some t, s)) (payload : Bytes) :
    let c' := ((course taken t).feed s.window index segment.number payload).2
    Ledger (countWith n segment) (events ++ [.push index channel segment payload])
      (Function.update taken t.id c'.taken) (s.feed index t segment.number payload).2 := by
  intro c'
  obtain ⟨started, ready⟩ := ledger.sound.target few target
  obtain ⟨transfers, visited, -⟩ := feed_frame s index t segment.number payload
  have heading := Course.place_heading t s.window segment.number payload.length
  have message := (Course.place_same t s.window segment.number payload.length).2.2.2.2
  have taken' := Course.feed_taken (course taken t) s.window index segment.number payload
  refine { sound := (started.feed ready index segment.number payload).2, filed := ?filed, begun := ?begun }
  case filed =>
    have placed := ledger.filed.place fresh channel segment payload
      (t.place s.window segment.number payload.length).1
    rw [message] at placed
    rw [visited, (target?_frame target).1, taken']
    exact placed
  case begun =>
    intro id u found
    rw [transfers] at found
    rcases lookup_insert found with ⟨rfl, rfl⟩ | ⟨different, other⟩
    · rw [Function.update_self]
      rcases ledger.sound.target_transfers target ready.present with ⟨declared, rfl, rfl, -⟩ | ⟨v, old, same⟩
      · -- this frame has just started the message, so nothing was taken in for it before
        have nothing := (ledger.sound.unknown (ledger.sound.nextId_unused few)).1
        refine begun_new ((ledger.filed.arrived index).mp fresh) heading ?_
        have zero := Course.feed_new e.nextId channel index declared s.window payload
        rw [← nothing] at zero
        exact zero
      · refine (ledger.begun old).mono (heading.trans same) ?_ _
        rw [taken']
        exact Placement.subset_extend _ _ _ _
    · rw [Function.update_of_ne different.symm]
      rcases ledger.sound.target_transfers target other with ⟨-, -, -, same, -⟩ | ⟨v, old, same⟩
      · exact absurd same.symm different
      · exact (ledger.begun old).mono same (List.Subset.refl _) _

theorem Ledger.orphan (ledger : Ledger n events taken e) (fresh : e.visited[index]? = none) :
    Ledger n (events ++ [.push index channel segment payload]) taken
      { e with visited := e.visited.insert index none } where
  sound := ⟨ledger.sound.nextId, ledger.sound.known, ledger.sound.unknown, ledger.sound.bound,
    ledger.sound.opened⟩
  filed := ledger.filed.orphan fresh
  begun found := (ledger.begun found).mono rfl (List.Subset.refl _) _

theorem Ledger.step (ledger : Ledger n events taken e) {event : Event} (keeps : event ≠ .reset)
    (few : e.countAfter n event < UInt32.size) :
    ∃ taken', Ledger (e.countAfter n event) (events ++ [event]) taken' (e.step event).2 := by
  cases event with
  | reset => exact absurd rfl keeps
  | setWindow window =>
    have ledger' : Ledger n (events ++ [.setWindow window]) taken e := ledger.skip fun _ _ => rfl
    exact ⟨taken, sound_setWindow ledger'.sound window, ledger'.filed, ledger'.begun⟩
  | push index channel segment payload =>
    rw [step_push]
    cases seen : e.visited[index]? with
    | some known =>
      rw [countAfter_again seen, push_visited seen]
      refine ⟨taken, ledger.skip fun other unseen => if_neg ?_⟩
      rintro rfl
      rw [seen] at unseen
      exact absurd unseen (Option.some_ne_none known)
    | none =>
      rw [countAfter_push seen] at few ⊢
      rcases target : e.target? index channel segment with ⟨_ | t, s⟩
      · obtain ⟨⟨number, rfl⟩, -, rfl⟩ := target?_none target
        rw [push_orphan seen target]
        exact ⟨taken, ledger.orphan seen⟩
      · rw [push_target seen target]
        exact ⟨_, ledger.feed seen few target payload⟩

theorem ledger_run (window : Nat) {events : List Event} (keeps : .reset ∉ events)
    (few : opened { window } 0 events < UInt32.size) :
    ∃ taken, Ledger (opened { window } 0 events) events taken (run { window } events) := by
  induction events using List.reverseRecOn with
  | nil => exact ⟨_, ledger_new window⟩
  | append_singleton events event ih =>
    rw [List.mem_append, List.mem_singleton, not_or] at keeps
    rw [opened_concat] at few ⊢
    rw [run_concat]
    have last : event ≠ .reset := fun same => keeps.2 same.symm
    obtain ⟨taken, ledger⟩ := ih keeps.1 (Nat.lt_of_le_of_lt (le_countAfter _ _ last) few)
    exact ledger.step last few

end Engine

end IsoTransport
