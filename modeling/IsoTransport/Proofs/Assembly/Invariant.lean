import IsoTransport.Proofs.Assembly.Feeding
import IsoTransport.Proofs.Assembly.History

/-!
The invariant of the engine: a message is bound to its channel until it is complete, its identifier is
its own, and the fragment store holds what it has taken in. `sound_run` gives it for every run.
-/

namespace IsoTransport.Engine

/-- After `n` opened messages, of which each has taken in the given pieces. -/
structure Sound (n : Nat) (taken : MessageId → List Piece) (e : Engine) : Prop where
  nextId : e.nextId.toNat = n % (UInt32.size - 1) + 1
  known {id : MessageId} {t : Transfer} : e.transfers[id]? = some t →
    t.id = id ∧ id.toNat ≤ n ∧
      Kept { transfer := t, taken := taken id } e.fragments.pending[id]? e.fragments.rebuilt[id]?
  unknown {id : MessageId} : e.transfers[id]? = none →
    taken id = [] ∧ e.fragments.pending[id]? = none ∧ e.fragments.rebuilt[id]? = none
  bound {channel : Channel} {id : MessageId} : e.bindings[channel]? = some id →
    ∃ t, e.transfers[id]? = some t ∧ t.channel = channel ∧ t.phase ≠ .complete
  opened {id : MessageId} {t : Transfer} : e.transfers[id]? = some t → t.phase = .opened →
    e.bindings[t.channel]? = some id

variable {n : Nat} {taken : MessageId → List Piece} {e : Engine}

theorem sound_new (window : Nat) : Sound 0 (fun _ => []) { window } where
  nextId := rfl
  known h := by simp at h
  unknown _ := by simp
  bound h := by simp at h
  opened h := by simp at h

theorem sound_setWindow (sound : Sound n taken e) (window : Nat) : Sound n taken (e.setWindow window) :=
  ⟨sound.nextId, sound.known, sound.unknown, sound.bound, sound.opened⟩

theorem Sound.bound?_eq (sound : Sound n taken e) {channel : Channel} {t : Transfer} :
    e.bound? channel = some t ↔
      e.transfers[t.id]? = some t ∧ e.bindings[channel]? = some t.id := by
  simp only [bound?, transfer?, Option.bind_eq_some_iff]
  constructor
  · rintro ⟨id, binding, found⟩
    obtain rfl := (sound.known found).1
    exact ⟨found, binding⟩
  · rintro ⟨found, binding⟩
    exact ⟨_, binding, found⟩

theorem Sound.bound?_none (sound : Sound n taken e) {channel : Channel} :
    e.bound? channel = none ↔ e.bindings[channel]? = none := by
  simp only [bound?, transfer?, Option.bind_eq_none_iff]
  constructor
  · intro nothing
    cases binding : e.bindings[channel]? with
    | none => rfl
    | some id =>
      obtain ⟨t, found, -⟩ := sound.bound binding
      rw [nothing id binding] at found
      exact absurd found.symm (Option.some_ne_none t)
  · intro nothing id binding
    rw [nothing] at binding
    exact absurd binding.symm (Option.some_ne_none id)

/-- The invariant survives a change of one bound message, which loses its binding when it is complete. -/
theorem Sound.replace (sound : Sound n taken e) {e' : Engine} {taken' : MessageId → List Piece}
    {t t' : Transfer} (found : e.transfers[t.id]? = some t)
    (binding : e.bindings[t.channel]? = some t.id) (id : t'.id = t.id) (channel : t'.channel = t.channel)
    (nextId : e'.nextId = e.nextId) (transfers : e'.transfers = e.transfers.insert t.id t')
    (bindings : e'.bindings =
      if t'.phase = .complete then e.bindings.erase t.channel else e.bindings)
    (others : ∀ other, t.id ≠ other → taken' other = taken other ∧
      e'.fragments.pending[other]? = e.fragments.pending[other]? ∧
      e'.fragments.rebuilt[other]? = e.fragments.rebuilt[other]?)
    (kept : Kept { transfer := t', taken := taken' t.id } e'.fragments.pending[t.id]?
      e'.fragments.rebuilt[t.id]?) : Sound n taken' e' := by
  have lookup : ∀ other, e'.transfers[other]? = if t.id = other then some t' else e.transfers[other]? := by
    intro other
    simp only [transfers, Std.TreeMap.getElem?_insert, Std.LawfulEqCmp.compare_eq_iff_eq]
  have boundTo : ∀ {c other}, e'.bindings[c]? = some other → e.bindings[c]? = some other ∧
      (t.channel = c → t'.phase ≠ .complete) := by
    intro c other h
    rw [bindings] at h
    split at h
    · rw [Std.TreeMap.getElem?_erase] at h
      split at h
      · exact absurd h (Option.some_ne_none _).symm
      · rename_i different
        exact ⟨h, fun same => absurd (Std.LawfulEqCmp.compare_eq_iff_eq.mpr same) different⟩
    · rename_i open_
      exact ⟨h, fun _ => open_⟩
  refine { nextId := nextId ▸ sound.nextId, known := ?known, unknown := ?unknown, bound := ?bound,
           opened := ?opened }
  case known =>
    intro other u h
    rw [transfers] at h
    rcases lookup_insert h with ⟨rfl, rfl⟩ | ⟨apart, h⟩
    · exact ⟨id, (sound.known found).2.1, kept⟩
    · obtain ⟨same, pending, rebuilt⟩ := others other apart
      rw [same, pending, rebuilt]
      exact sound.known h
  case unknown =>
    intro other h
    rw [lookup] at h
    split at h
    · exact absurd h (Option.some_ne_none _)
    · rename_i apart
      obtain ⟨same, pending, rebuilt⟩ := others other apart
      rw [same, pending, rebuilt]
      exact sound.unknown h
  case bound =>
    intro c other h
    obtain ⟨old, open_⟩ := boundTo h
    obtain ⟨u, present, on, unfinished⟩ := sound.bound old
    by_cases here : t.id = other
    · subst here
      obtain rfl := Option.some.inj (found.symm.trans present)
      exact ⟨t', by rw [lookup, if_pos rfl], channel.trans on, open_ on⟩
    · exact ⟨u, by rw [lookup, if_neg here]; exact present, on, unfinished⟩
  case opened =>
    intro other u h phase
    rw [transfers] at h
    rcases lookup_insert h with ⟨rfl, rfl⟩ | ⟨apart, h⟩
    · have open_ : ¬t'.phase = .complete := by simp [phase]
      rw [bindings, if_neg open_, channel, binding]
    · -- two open messages are bound to different channels, so the binding that may go is not this one
      have old := sound.opened h phase
      have elsewhere : t.channel ≠ u.channel := by
        intro same
        rw [← same, binding] at old
        exact apart (Option.some.inj old)
      rw [bindings]
      split
      · rw [Std.TreeMap.getElem?_erase, if_neg (by simpa using elsewhere)]
        exact old
      · exact old

/-! ### Starting a message -/

theorem toNat_succId {id : MessageId} (place : id.toNat = n % (UInt32.size - 1) + 1) :
    (succId id).toNat = (n + 1) % (UInt32.size - 1) + 1 := by
  have small := id.toNat_lt
  unfold succId
  split
  · rename_i zero
    have wrapped := congrArg UInt32.toNat zero
    simp only [UInt32.toNat_add, UInt32.toNat_one, UInt32.toNat_zero] at wrapped
    rw [UInt32.toNat_one]
    simp only [UInt32.size] at *
    omega
  · rename_i nonzero
    have above : (id + 1).toNat ≠ 0 := fun same => nonzero (UInt32.toNat_inj.mp same)
    simp only [UInt32.toNat_add, UInt32.toNat_one] at above ⊢
    simp only [UInt32.size] at *
    omega

theorem supersede_frame (e : Engine) (channel : Channel) :
    (e.supersede channel).nextId = e.nextId ∧ (e.supersede channel).bindings = e.bindings ∧
      (e.supersede channel).visited = e.visited ∧ (e.supersede channel).window = e.window := by
  unfold supersede
  split
  · split <;> exact ⟨rfl, rfl, rfl, rfl⟩
  · exact ⟨rfl, rfl, rfl, rfl⟩

theorem supersede_open {channel : Channel} {t : Transfer} (bound : e.bound? channel = some t)
    (phase : t.phase = .opened) :
    e.supersede channel =
      { e with
        transfers := e.transfers.insert t.id t.fail
        fragments := e.fragments.discard t.id } := by
  simp only [supersede, bound, if_pos phase]

theorem supersede_closed {channel : Channel} (closed : ∀ t, e.bound? channel = some t → t.phase ≠ .opened) :
    e.supersede channel = e := by
  unfold supersede
  split
  · rename_i t bound
    rw [if_neg (closed t bound)]
  · rfl

theorem supersede_cases (e : Engine) (channel : Channel) :
    e.supersede channel = e ∨
      ∃ t, e.bound? channel = some t ∧ t.phase = .opened ∧
        e.supersede channel =
          { e with
            transfers := e.transfers.insert t.id t.fail
            fragments := e.fragments.discard t.id } := by
  by_cases open_ : ∃ t, e.bound? channel = some t ∧ t.phase = .opened
  · obtain ⟨t, bound, phase⟩ := open_
    exact .inr ⟨t, bound, phase, supersede_open bound phase⟩
  · exact .inl (supersede_closed fun t bound phase => open_ ⟨t, bound, phase⟩)

/-- Superseding leaves a message as it was, or failed. -/
theorem supersede_left {channel : Channel} {id : MessageId} {t : Transfer}
    (found : (e.supersede channel).transfers[id]? = some t) :
    e.transfers[id]? = some t ∨ ∃ u, e.bound? channel = some u ∧ u.id = id ∧ t = u.fail := by
  rcases e.supersede_cases channel with same | ⟨u, bound, -, failed⟩
  · exact .inl (same ▸ found)
  · rw [failed] at found
    rcases lookup_insert found with ⟨here, now⟩ | ⟨-, old⟩
    · exact .inr ⟨u, bound, here, now.symm⟩
    · exact .inl old

theorem Sound.supersede (sound : Sound n taken e) (channel : Channel) :
    Sound n taken (e.supersede channel) := by
  rcases e.supersede_cases channel with same | ⟨t, bound, phase, failed⟩
  · rw [same]
    exact sound
  · obtain ⟨present, binding⟩ := sound.bound?_eq.mp bound
    obtain ⟨u, again, on, -⟩ := sound.bound binding
    obtain rfl := Option.some.inj (present.symm.trans again)
    rw [failed]
    rw [← on] at binding
    have absent := ((sound.known present).2.2.of_opened phase).2.2
    exact sound.replace present binding (show t.fail.id = t.id from rfl) rfl rfl rfl rfl
      (fun other different => ⟨rfl, FragmentStore.discard_pending_other different, rfl⟩)
      (kept_failed rfl _ absent)

theorem Sound.not_open (sound : Sound n taken e) {channel : Channel} {id : MessageId} {t : Transfer}
    (found : (e.supersede channel).transfers[id]? = some t) (on : t.channel = channel) :
    t.phase ≠ .opened := by
  intro phase
  have binding := (sound.supersede channel).opened found phase
  rw [(supersede_frame e channel).2.1, on] at binding
  obtain ⟨u, present, -⟩ := sound.bound binding
  obtain ⟨same, -⟩ := sound.known present
  subst same
  have bound := sound.bound?_eq.mpr ⟨present, binding⟩
  by_cases open_ : u.phase = .opened
  · rw [supersede_open bound open_, Std.TreeMap.getElem?_insert_self] at found
    rw [← Option.some.inj found] at phase
    exact absurd phase (show Phase.errored ≠ .opened by decide)
  · rw [supersede_closed fun v again => by
      rw [← Option.some.inj (bound.symm.trans again)]
      exact open_] at found
    rw [← Option.some.inj (present.symm.trans found)] at phase
    exact open_ phase

theorem Sound.nextId_unused (sound : Sound n taken e) (few : n + 1 < UInt32.size) :
    e.transfers[e.nextId]? = none := by
  cases found : e.transfers[e.nextId]? with
  | none => rfl
  | some t =>
    have below := (sound.known found).2.1
    have place := sound.nextId
    rw [Nat.mod_eq_of_lt (by omega)] at place
    omega

theorem Sound.start (sound : Sound n taken e) (few : n + 1 < UInt32.size) (index : FrameIndex)
    (channel : Channel) (declared : Nat) :
    Sound (n + 1) taken (e.start index channel declared).2 := by
  have before := sound.supersede channel
  obtain ⟨nextId, bindings, -⟩ := supersede_frame e channel
  have unused : (e.supersede channel).transfers[e.nextId]? = none := by
    rw [← nextId]
    exact before.nextId_unused few
  have closed : ∀ {id} {t : Transfer}, (e.supersede channel).transfers[id]? = some t →
      t.channel = channel → t.phase ≠ .opened := sound.not_open
  have place : e.nextId.toNat = n + 1 := by
    rw [sound.nextId, Nat.mod_eq_of_lt (by omega)]
  unfold Engine.start
  generalize e.supersede channel = s at before unused closed nextId bindings ⊢
  refine { nextId := toNat_succId sound.nextId, known := ?known, unknown := ?unknown, bound := ?bound,
           opened := ?opened }
  case known =>
    intro id t h
    rcases lookup_insert h with ⟨rfl, rfl⟩ | ⟨-, h⟩
    · obtain ⟨nothing, pending, rebuilt⟩ := before.unknown unused
      refine ⟨rfl, by omega, ?_⟩
      simp only [nothing, pending, rebuilt]
      exact .opened ⟨rfl, Transfer.counts_new .., .inl rfl⟩ rfl
    · obtain ⟨same, below, kept⟩ := before.known h
      exact ⟨same, by omega, kept⟩
  case unknown =>
    intro id h
    rw [Std.TreeMap.getElem?_insert] at h
    split at h
    · exact absurd h (Option.some_ne_none _)
    · exact before.unknown h
  case bound =>
    intro c id h
    rcases lookup_insert h with ⟨rfl, rfl⟩ | ⟨-, h⟩
    · exact ⟨_, Std.TreeMap.getElem?_insert_self, rfl, show Phase.opened ≠ .complete by decide⟩
    · obtain ⟨t, present, on, unfinished⟩ := before.bound h
      have apart : e.nextId ≠ id := by
        rintro rfl
        rw [unused] at present
        exact absurd present.symm (Option.some_ne_none t)
      exact ⟨t, by simpa [Std.TreeMap.getElem?_insert, apart] using present, on, unfinished⟩
  case opened =>
    intro id t h phase
    rcases lookup_insert h with ⟨rfl, rfl⟩ | ⟨-, h⟩
    · exact Std.TreeMap.getElem?_insert_self
    · -- an earlier message on this channel has just been superseded, so it is not open
      have elsewhere : channel ≠ t.channel := fun same => closed h same.symm phase
      simpa [Std.TreeMap.getElem?_insert, elsewhere] using before.opened h phase

/-! ### Pushing a frame -/

/-- The message that is next to be fed, and the engine at that moment. -/
structure Ready (e : Engine) (channel : Channel) (t : Transfer) : Prop where
  present : e.transfers[t.id]? = some t
  binding : e.bindings[channel]? = some t.id
  on : t.channel = channel
  unfinished : t.phase ≠ .complete

theorem target?_first (e : Engine) (index : FrameIndex) (channel : Channel) (declared : Nat) :
    e.target? index channel (.first declared) =
      (some { id := e.nextId, channel, firstFrame := index, declared },
        (e.start index channel declared).2) := by
  simp [target?, start, transfer?]

def countWith (n : Nat) : Segment → Nat
  | .first _ => n + 1
  | .consecutive _ => n

theorem countAfter_push {index : FrameIndex} (fresh : e.visited[index]? = none) (channel : Channel)
    (segment : Segment) (payload : Bytes) :
    e.countAfter n (.push index channel segment payload) = countWith n segment := by
  have unseen := isVisited_eq_false.mpr fresh
  cases segment <;> simp [countAfter, opens, unseen, countWith]

theorem Sound.ready (sound : Sound n taken e) {channel : Channel} {t : Transfer}
    (bound : e.bound? channel = some t) : e.Ready channel t := by
  obtain ⟨present, binding⟩ := sound.bound?_eq.mp bound
  obtain ⟨u, again, on, unfinished⟩ := sound.bound binding
  obtain rfl := Option.some.inj (present.symm.trans again)
  exact ⟨present, binding, on, unfinished⟩

theorem Sound.target (sound : Sound n taken e) {index : FrameIndex} {channel : Channel}
    {segment : Segment} (few : countWith n segment < UInt32.size) {t : Transfer} {s : Engine}
    (target : e.target? index channel segment = (some t, s)) :
    Sound (countWith n segment) taken s ∧ s.Ready channel t := by
  cases segment with
  | first declared =>
    rw [target?_first, Prod.mk.injEq, Option.some.injEq] at target
    obtain ⟨rfl, rfl⟩ := target
    exact ⟨sound.start few index channel declared, Std.TreeMap.getElem?_insert_self,
      Std.TreeMap.getElem?_insert_self, rfl, show Phase.opened ≠ .complete by decide⟩
  | consecutive number =>
    rw [target?, Prod.mk.injEq] at target
    obtain ⟨bound, rfl⟩ := target
    exact ⟨sound, sound.ready bound⟩

def course (taken : MessageId → List Piece) (t : Transfer) : Course :=
  { transfer := t, taken := taken t.id }

theorem Sound.feed_maps (sound : Sound n taken e) {channel : Channel} {t : Transfer}
    (ready : e.Ready channel t) (index : FrameIndex) (number : UInt8) (payload : Bytes) :
    let t' := ((course taken t).feed e.window index number payload).2.transfer
    let e' := (e.feed index t number payload).2
    t'.id = t.id ∧ t'.channel = channel ∧ e'.transfers = e.transfers.insert t.id t' ∧
      e'.bindings = if t'.phase = .complete then e.bindings.erase channel else e.bindings := by
  obtain ⟨present, binding, rfl, unfinished⟩ := ready
  obtain ⟨-, bindings, -⟩ := feed_agrees (c := course taken t) unfinished binding
    (sound.known present).2.2 index number payload
  obtain ⟨id, channel, -⟩ := Course.place_same t e.window number payload.length
  refine ⟨?_, ?_, ?_, bindings⟩
  · rw [Course.feed_transfer]; exact id
  · rw [Course.feed_transfer]; exact channel
  · rw [Course.feed_transfer]; exact (feed_frame e index t number payload).1

/-- Feeding keeps the invariant, and does what it does to the message alone. -/
theorem Sound.feed (sound : Sound n taken e) {channel : Channel} {t : Transfer}
    (ready : e.Ready channel t) (index : FrameIndex) (number : UInt8) (payload : Bytes) :
    let c' := ((course taken t).feed e.window index number payload).2
    (e.feed index t number payload).1 = ((course taken t).feed e.window index number payload).1 ∧
      Sound n (Function.update taken t.id c'.taken) (e.feed index t number payload).2 := by
  obtain ⟨id, channel, transfers, bindings⟩ := sound.feed_maps ready index number payload
  obtain ⟨present, binding, rfl, unfinished⟩ := ready
  obtain ⟨answer, -, kept⟩ := feed_agrees (c := course taken t) unfinished binding
    (sound.known present).2.2 index number payload
  obtain ⟨-, -, -, nextId⟩ := feed_frame e index t number payload
  refine ⟨answer, sound.replace present binding id channel nextId transfers bindings ?_ ?_⟩
  · intro other different
    exact ⟨Function.update_of_ne (Ne.symm different) _ _,
      feed_fragments_other e index t number payload different⟩
  · rw [Function.update_self]
    exact kept

end IsoTransport.Engine
