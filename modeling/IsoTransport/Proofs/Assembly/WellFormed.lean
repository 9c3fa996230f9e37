import IsoTransport.Proofs.Assembly.Handover
import IsoTransport.Proofs.Assembly.Moves

/-!
What holds of the engine in every state: a channel is bound to a message of its own that still runs, and what
is stored of a message is what its counters tell, in each of its phases (`wellFormed_run`).
-/

namespace IsoTransport

/-- The fragments stored of an open message are those that its counters tell of. -/
structure Collected (t : Transfer) (p : Pending) : Prop where
  short : t.accumulated < t.declared
  accumulated : (p.pieces.values.map List.length).sum = t.accumulated
  highest : p.pieces.maxKey? = some t.highest
  first : 0 ∈ p.pieces

namespace Piece

theorem maxKey?_gather {taken : List Piece} (nonempty : taken ≠ []) :
    (gather taken).maxKey? = some (highest taken) := by
  rw [Std.TreeMap.maxKey?_eq_some_iff_mem_and_forall]
  refine ⟨mem_gather.mpr (exists_highest nonempty), fun k stored => ?_⟩
  obtain ⟨x, member, rfl⟩ := mem_gather.mp stored
  exact Nat.isLE_compare.mpr (fragment_le_highest member)

end Piece

namespace Engine

variable {n : Nat} {taken : MessageId → List Piece} {e s : Engine} {index : FrameIndex} {channel : Channel}
  {segment : Segment} {id : MessageId} {t : Transfer} {events : List Event}

/-- Each placement is in a message that is there, and is below the limit if it was accepted. -/
def Placed (e : Engine) : Prop :=
  ∀ {index p}, e.placement? index = some p →
    (∃ t, e.transfers[p.message]? = some t) ∧ (p.verdict = .accepted → p.fragment < 4080)

/-- What the maps of the engine tell fits together. -/
structure WellFormed (e : Engine) : Prop where
  bound {channel : Channel} {id : MessageId} : e.bindings[channel]? = some id →
    ∃ t, e.transfers[id]? = some t ∧ t.channel = channel ∧ t.phase ≠ .complete
  opened {id : MessageId} {t : Transfer} : e.transfers[id]? = some t → t.phase = .opened →
    e.bindings[t.channel]? = some id
  single {id id' : MessageId} {t t' : Transfer} : e.transfers[id]? = some t → e.transfers[id']? = some t' →
    t.phase = .opened → t'.phase = .opened → t.channel = t'.channel → id = id'
  going {id : MessageId} {t : Transfer} : e.transfers[id]? = some t → t.phase = .opened →
    0 < t.declared ∧ (∃ p, e.fragments.pending[id]? = some p ∧ Collected t p) ∧
      e.fragments.rebuilt[id]? = none
  failed {id : MessageId} {t : Transfer} : e.transfers[id]? = some t → t.phase = .errored →
    e.fragments.pending[id]? = none ∧ e.fragments.rebuilt[id]? = none
  /-- A complete message was handed over, or its fragments are still there and do not make it up. -/
  complete {id : MessageId} {t : Transfer} : e.transfers[id]? = some t → t.phase = .complete →
    t.accumulated = t.declared ∧
      ((∃ m, e.fragments.rebuilt[id]? = some m ∧ m.payload.length = t.declared ∧
          e.fragments.pending[id]? = none) ∨
        (e.fragments.rebuilt[id]? = none ∧ 0 < e.fragments.buffered id ∧ e.fragments.missing id ≠ []))
  placed : e.Placed

/-! ### What is stored of one message -/

theorem Sound.going (sound : Sound n taken e) (found : e.transfers[id]? = some t) (phase : t.phase = .opened)
    (first : ∃ x ∈ taken id, x.fragment = 0) :
    0 < t.declared ∧ (∃ p, e.fragments.pending[id]? = some p ∧ Collected t p) ∧
      e.fragments.rebuilt[id]? = none := by
  obtain ⟨opened, stored, absent⟩ := (sound.known found).2.2.of_opened phase
  have zero : 0 ∈ Piece.gather (taken id) := Piece.mem_gather.mpr first
  have nonempty : taken id ≠ [] := by
    obtain ⟨x, member, -⟩ := first
    exact List.ne_nil_of_mem member
  have short : t.accumulated < t.declared := opened.room.resolve_left nonempty
  refine ⟨Nat.zero_lt_of_lt short, ?_, absent⟩
  cases pending : e.fragments.pending[id]? with
  | none =>
    have nothing : ({} : Pending) = { pieces := Piece.gather (taken id) } := by simpa [pending] using stored
    rw [← (Pending.mk.inj nothing).1] at zero
    exact absurd zero Std.TreeMap.not_mem_emptyc
  | some p =>
    obtain rfl : p = { pieces := Piece.gather (taken id) } := by simpa [pending] using stored
    refine ⟨_, rfl, short, ?_, ?_, zero⟩
    · rw [opened.counts.accumulated, ← Piece.length_payload_gather opened.counts.distinct none]
      exact List.length_flatten.symm
    · rw [opened.counts.highest]
      exact Piece.maxKey?_gather nonempty

theorem Sound.failed (sound : Sound n taken e) (found : e.transfers[id]? = some t) (phase : t.phase = .errored) :
    e.fragments.pending[id]? = none ∧ e.fragments.rebuilt[id]? = none := by
  have kept := (sound.known found).2.2
  generalize e.fragments.pending[id]? = pending at kept ⊢
  generalize e.fragments.rebuilt[id]? = rebuilt at kept ⊢
  cases kept with
  | opened opened => exact absurd (phase.symm.trans opened.phase) (by decide)
  | incomplete complete => exact absurd (phase.symm.trans complete) (by decide)
  | rebuilt complete => exact absurd (phase.symm.trans complete) (by decide)
  | errored => exact ⟨rfl, rfl⟩

theorem Sound.complete (sound : Sound n taken e) (found : e.transfers[id]? = some t)
    (phase : t.phase = .complete) :
    t.accumulated = t.declared ∧
      ((∃ m, e.fragments.rebuilt[id]? = some m ∧ m.payload.length = t.declared ∧
          e.fragments.pending[id]? = none) ∨
        (e.fragments.rebuilt[id]? = none ∧ 0 < e.fragments.buffered id ∧ e.fragments.missing id ≠ [])) := by
  have kept := (sound.known found).2.2
  rw [FragmentStore.buffered, FragmentStore.missing]
  generalize e.fragments.pending[id]? = pending at kept ⊢
  generalize e.fragments.rebuilt[id]? = rebuilt at kept ⊢
  cases kept with
  | opened opened => exact absurd (phase.symm.trans opened.phase) (by decide)
  | errored errored => exact absurd (phase.symm.trans errored) (by decide)
  | incomplete _ counts full last hole =>
    refine ⟨full, .inr ⟨rfl, ?_, Pending.missing_ne_nil rfl hole⟩⟩
    have size : (Piece.gather (taken id)).size = (taken id).length := Piece.size_gather counts.distinct
    have some_ : 0 < (taken id).length := by simp [show taken id = _ from last]
    exact Nat.lt_of_lt_of_eq some_ size.symm
  | rebuilt _ counts full last whole =>
    refine ⟨full, .inl ⟨_, rfl, ?_, rfl⟩⟩
    have bytes := Piece.length_payload_gather counts.distinct
    exact (bytes _).trans (counts.accumulated.symm.trans full)

/-! ### The placements -/

theorem Sound.accepted_lt (sound : Sound n taken e) (ready : e.Ready channel t) {window length : Nat}
    {number : UInt8} (accepted : (t.place window number length).1.verdict = .accepted) :
    (t.place window number length).1.fragment < 4080 := by
  have phase := Course.opened_of_accepted ready.unfinished accepted
  have counts := ((sound.known ready.present).2.2.of_opened phase).1.counts
  have limit := counts.limit (Transfer.slot number)
  obtain ⟨free, -, fragment⟩ := Transfer.place_of_accepted phase counts accepted
  rw [fragment]
  simp only [Transfer.nextFragment, Transfer.roundLimit, Transfer.slot] at free limit ⊢
  omega

theorem placed_new (window : Nat) : Placed { window } := fun found => by simp [placement?] at found

theorem Placed.push (placed : e.Placed) (sound : Sound n taken e) (fresh : e.visited[index]? = none)
    (few : countWith n segment < UInt32.size) (payload : Bytes) :
    (e.push index channel segment payload).2.Placed := by
  intro other p found
  by_cases here : index = other
  · subst here
    obtain ⟨t, s, target, rfl, message⟩ := placed_first fresh found
    obtain ⟨started, ready⟩ := sound.target few target
    obtain ⟨transfers, -⟩ := feed_frame s index t segment.number payload
    rw [push_target fresh target, transfers, message]
    exact ⟨⟨_, Std.TreeMap.getElem?_insert_self⟩, started.accepted_lt ready⟩
  · have same : (e.push index channel segment payload).2.placement? other = e.placement? other := by
      obtain ⟨p', visited⟩ := push_inserts fresh channel segment payload
      rw [placement?, visited, Std.TreeMap.getElem?_insert, if_neg (by simpa using here), placement?]
    rw [same] at found
    obtain ⟨⟨t, present⟩, below⟩ := placed found
    obtain ⟨t', present', -⟩ := ((sound.push_moves fresh few channel payload _).grows present).1
    exact ⟨⟨t', present'⟩, below⟩

theorem Placed.step (placed : e.Placed) (sound : Sound n taken e) {event : Event}
    (few : e.countAfter n event < UInt32.size) : (e.step event).2.Placed := by
  cases event with
  | reset => exact placed_new e.window
  | setWindow => exact placed
  | push index channel segment payload =>
    rw [step_push]
    cases seen : e.visited[index]? with
    | some known =>
      rw [push_visited seen]
      exact placed
    | none =>
      rw [countAfter_push seen] at few
      exact placed.push sound seen few payload

/-! ### Runs -/

theorem ledger_since (window : Nat) (few : opened { window } 0 events < UInt32.size) :
    ∃ since taken, Ledger (opened { window } 0 events) since taken (run { window } events) ∧
      (run { window } events).Placed := by
  -- by the last event, since a reset forgets all that came before it
  induction events using List.reverseRecOn with
  | nil => exact ⟨[], _, ledger_new window, placed_new window⟩
  | append_singleton events event ih =>
    rw [opened_concat] at few ⊢
    rw [run_concat]
    by_cases keeps : event = .reset
    · subst keeps
      exact ⟨[], _, ledger_new _, placed_new _⟩
    · obtain ⟨since, taken, ledger, placed⟩ := ih (Nat.lt_of_le_of_lt (le_countAfter _ _ keeps) few)
      obtain ⟨taken', ledger'⟩ := ledger.step keeps few
      exact ⟨_, taken', ledger', placed.step ledger.sound few⟩

/-- The engine is well-formed in every state that it can come to. -/
theorem wellFormed_run (window : Nat) {events : List Event}
    (few : opened { window } 0 events < UInt32.size) : (run { window } events).WellFormed := by
  obtain ⟨since, taken, ledger, placed⟩ := ledger_since window few
  have sound := ledger.sound
  refine { bound := sound.bound, opened := sound.opened, single := ?single, going := ?going,
           failed := sound.failed, complete := sound.complete, placed := placed }
  case single =>
    intro id id' t t' found found' phase phase' same
    have binding := sound.opened found phase
    rw [same, sound.opened found' phase'] at binding
    exact (Option.some.inj binding).symm
  case going =>
    intro id t found phase
    obtain ⟨-, x, member, -, zero⟩ := ledger.begun found
    exact sound.going found phase ⟨x, member, zero⟩

/-- After a reset, of four messages one has run out of its window, one lacks a fragment, one was handed over
and the last is open. -/
theorem wellFormed_run_mixed :
    let channel : Channel := { medium := .can, id := 7 }
    let events : List Event :=
      [.push 0 channel (.first 9) [1], .reset, .setWindow 2, .push 0 channel (.first 9) [1],
        .push 1 channel (.consecutive 3) [2], .push 2 channel (.first 3) [3],
        .push 3 channel (.consecutive 1) [4], .push 4 channel (.consecutive 3) [5],
        .push 5 channel (.first 1) [6, 7], .push 6 channel (.consecutive 1) [], .push 7 channel (.first 5) [8]]
    let e := run { window := 8 } events
    opened { window := 8 } 0 events = 4 ∧
      [1, 2, 3, 4].map (fun id => (e.transfer? id).map (·.phase)) =
        [some .errored, some .complete, some .complete, some .opened] ∧
      e.fragments.missing 2 = [2] ∧ e.fragments.missing 3 = [] ∧ e.WellFormed := by
  intro channel events e
  have few : opened { window := 8 } 0 events < UInt32.size := by decide +kernel
  exact ⟨by decide +kernel, by decide +kernel, by decide +kernel, by decide +kernel, wellFormed_run 8 few⟩

end Engine

end IsoTransport
