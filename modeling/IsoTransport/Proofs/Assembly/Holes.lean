import IsoTransport.Proofs.Assembly.Handover

/-!
Missing fragments. When a message has its declared length, it is asked whether all fragments up to the one
that came last are there; one above it may be missing, and the message is handed over all the same
(`completed_whole_iff`).
-/

namespace IsoTransport.Engine

variable {n : Nat} {events : List Event} {taken : MessageId → List Piece} {e : Engine}
  {index : FrameIndex} {channel : Channel} {segment : Segment} {payload bytes : Bytes} {p : Placement}
  {declared : Nat}

def Covers (e : Engine) (id : MessageId) (k : Nat) : Prop :=
  ∃ index, e.Accepts id index ∧ e.fragmentOf index = k

def highestOf (e : Engine) (id : MessageId) : Nat := ((e.transfer? id).map (·.highest)).getD 0

/-- Every fragment up to the highest has been accepted, and they are what the message consists of. -/
structure Whole (e : Engine) (events : List Event) (id : MessageId) (bytes : Bytes) : Prop where
  exact (k : Nat) : e.Covers id k ↔ k ≤ e.highestOf id
  assembled : ∃ frames, e.Assembles events id frames bytes ∧
    frames.map e.fragmentOf = List.range (e.highestOf id + 1)
  count : (e.fragments.rebuilt? id).map (·.count) = some (e.highestOf id + 1)

theorem Ledger.covers_iff (ledger : Ledger n events taken e) {id : MessageId} {k : Nat} :
    e.Covers id k ↔ ∃ x ∈ taken id, x.fragment = k := by
  constructor
  · rintro ⟨index, accepts, rfl⟩
    obtain ⟨x, member, rfl⟩ := ledger.accepts_iff.mp accepts
    exact ⟨x, member, (ledger.fragmentOf_eq member).symm⟩
  · rintro ⟨x, member, rfl⟩
    exact ⟨x.frame, ledger.accepts_iff.mpr ⟨x, member, rfl⟩, ledger.fragmentOf_eq member⟩

theorem Ledger.fragment_eq (ledger : Ledger n events taken e) (visited : e.visited[index]? = some (some p))
    {x : Piece} (member : x ∈ taken p.message) (frame : x.frame = index) : x.fragment = p.fragment := by
  rw [← ledger.fragmentOf_eq member, frame, fragmentOf, placement?_eq.mpr visited]
  rfl

/-- A message that is handed over has every fragment up to that of the frame that came last. -/
theorem Ledger.delivered_covers (ledger : Ledger n events taken e)
    (delivered : Delivered e index p bytes declared) : ∀ k ≤ p.fragment, e.Covers p.message k := by
  obtain ⟨m, rebuilt, frame, -⟩ := delivered.rebuilt
  obtain ⟨t, before, x, -, -, -, last, whole, rfl⟩ := ledger.sound.rebuilt rebuilt
  have member : x ∈ taken p.message := by
    rw [last]
    exact List.mem_append_right _ (List.mem_singleton_self x)
  intro k below
  rw [← ledger.fragment_eq delivered.visited member frame] at below
  exact ledger.covers_iff.mpr (Piece.isComplete_closed.mp whole k below)

theorem Ledger.delivered_whole_iff (ledger : Ledger n events taken e)
    (delivered : Delivered e index p bytes declared) :
    e.Whole events p.message bytes ↔
      ∀ k, p.fragment < k → k < e.highestOf p.message → e.Covers p.message k := by
  refine ⟨fun whole k _ below => (whole.exact k).mpr (Nat.le_of_lt below), fun filled => ?_⟩
  have lower := ledger.delivered_covers delivered
  obtain ⟨m, rebuilt, frame, rfl⟩ := delivered.rebuilt
  obtain ⟨t, before, x, found, counts, -, last, -, rfl⟩ := ledger.sound.rebuilt rebuilt
  have highest : e.highestOf p.message = Piece.highest (taken p.message) := by
    rw [highestOf, transfer?, found, ← counts.highest]
    rfl
  have exact_ : ∀ k, e.Covers p.message k ↔ k ≤ e.highestOf p.message := by
    intro k
    refine ⟨fun covers => ?_, fun below => ?_⟩
    · obtain ⟨y, member, rfl⟩ := ledger.covers_iff.mp covers
      rw [highest]
      exact Piece.fragment_le_highest member
    · rcases Nat.lt_or_eq_of_le below with inside | top
      · rcases Nat.lt_or_ge p.fragment k with high | low
        · exact filled k high inside
        · exact lower k low
      · rw [top, highest]
        exact ledger.covers_iff.mpr (Piece.exists_highest (by simp [last]))
  obtain ⟨sorted, perm, ordered⟩ := Piece.exists_sorted counts.distinct
  have fragments : sorted.map (·.fragment) = List.range (e.highestOf p.message + 1) := by
    refine sorted_eq_range (List.pairwise_map.mpr ordered) fun k => ?_
    rw [List.mem_map, Nat.lt_succ_iff, ← exact_, ledger.covers_iff]
    simp only [perm.mem_iff]
  refine ⟨exact_, ⟨sorted.map (·.frame), ?_, ?_⟩, ?_⟩
  · rw [Piece.rebuild, Piece.closed, Piece.payload_gather perm ordered]
    exact ledger.assembles perm ordered
  · rw [← fragments, List.map_map]
    exact List.map_congr_left fun y member => ledger.fragmentOf_eq (perm.mem_iff.mp member)
  · rw [FragmentStore.rebuilt?, rebuilt, Option.map_some, Piece.rebuild, Piece.closed,
      Piece.size_gather counts.distinct, ← perm.length_eq, ← List.length_map (·.fragment), fragments,
      List.length_range]

/-- A fragment that is taken in comes last in its message, and is answered for as by the message alone. -/
theorem Ledger.push_accepted (ledger : Ledger n events taken e) (fresh : e.visited[index]? = none)
    (few : countWith n segment < UInt32.size)
    (placed : (e.push index channel segment payload).2.placement? index = some p)
    (accepted : p.verdict = .accepted) :
    ∃ taken' t, Ledger (countWith n segment) (events ++ [.push index channel segment payload]) taken'
        (e.push index channel segment payload).2 ∧
      taken' p.message = taken t.id ++ [p.piece index payload] ∧
      (e.push index channel segment payload).1 =
        .ok ((course taken t).accepted p (p.piece index payload)) := by
  obtain ⟨t, s, target, rfl, message⟩ := placed_first fresh placed
  obtain ⟨started, ready⟩ := ledger.sound.target few target
  have after := ledger.feed fresh few target payload
  have answer := (started.feed ready index segment.number payload).1
  have pieces : (Placement.extend _ index payload (taken t.id)) = taken t.id ++ _ := if_pos accepted
  rw [Course.feed_answer (c := course taken t) accepted] at answer
  rw [push_target fresh target]
  refine ⟨_, t, after, ?_, answer⟩
  rw [message, Function.update_self, Course.feed_taken]
  exact pieces

/-- Of the frame that brings a message to its declared length it is asked whether all fragments up to its
own are there, and nothing else. -/
theorem Ledger.push_last (ledger : Ledger n events taken e) (fresh : e.visited[index]? = none)
    (few : countWith n segment < UInt32.size)
    (placed : (e.push index channel segment payload).2.placement? index = some p)
    (last : p.last = true) :
    let e' := (e.push index channel segment payload).2
    let answer := (e.push index channel segment payload).1
    ((∀ k ≤ p.fragment, e'.Covers p.message k) →
        ∃ bytes declared, answer = .ok (.completed p bytes declared)) ∧
      ((∃ k ≤ p.fragment, ¬e'.Covers p.message k) →
        answer = .ok (.incomplete p) ∧ e'.fragments.rebuilt? p.message = none) := by
  intro e' answer
  have accepted : p.verdict = .accepted := by
    obtain ⟨t, s, -, rfl, -⟩ := placed_first fresh placed
    exact Course.accepted_of_last last
  obtain ⟨taken', t, ledger', pieces, answered⟩ := ledger.push_accepted fresh few placed accepted
  have complete_iff : (Piece.closed (taken' p.message) (p.piece index payload)).isComplete ↔
      ∀ k ≤ p.fragment, e'.Covers p.message k := by
    simp only [Piece.isComplete_closed, ← ledger'.covers_iff]
    rfl
  have outcome : answer = .ok (if (Piece.closed (taken' p.message) (p.piece index payload)).isComplete then
      .completed p (Piece.closed (taken' p.message) (p.piece index payload)).payload t.declared
      else .incomplete p) := by
    rw [pieces]
    exact answered.trans (congrArg Except.ok (if_pos last))
  refine ⟨fun covered => ?_, fun ⟨k, below, missing⟩ => ?_⟩
  · rw [if_pos (complete_iff.mpr covered)] at outcome
    exact ⟨_, _, outcome⟩
  · have hole : ¬(Piece.closed (taken' p.message) (p.piece index payload)).isComplete :=
      fun complete => missing (complete_iff.mp complete k below)
    rw [if_neg hole] at outcome
    refine ⟨outcome, Option.eq_none_iff_forall_ne_some.mpr fun m rebuilt => ?_⟩
    obtain ⟨-, before, x, -, -, -, ends, complete, -⟩ := ledger'.sound.rebuilt rebuilt
    obtain rfl : p.piece index payload = x := by
      rw [pieces] at ends
      exact List.singleton_inj.mp (List.append_inj' ends rfl).2
    exact hole complete

/-- Which messages with missing fragments are handed over: those that miss none up to the frame that came
last, but miss one above it. All others that miss a fragment are answered for as incomplete. -/
theorem completed_whole_iff {window : Nat} (keeps : .reset ∉ events)
    (few : opened { window } 0 (events ++ [.push index channel segment payload]) < UInt32.size) :
    let history := events ++ [.push index channel segment payload]
    let e := run { window } events
    let e' := run { window } history
    let answer := (e.push index channel segment payload).1
    (∀ p bytes declared, answer = .ok (.completed p bytes declared) →
      (∀ k ≤ p.fragment, e'.Covers p.message k) ∧
      (e'.Whole history p.message bytes ↔
        ∀ k, p.fragment < k → k < e'.highestOf p.message → e'.Covers p.message k)) ∧
    ∀ p, e.visited[index]? = none → e'.placement? index = some p → p.last = true →
      ((∀ k ≤ p.fragment, e'.Covers p.message k) →
        ∃ bytes declared, answer = .ok (.completed p bytes declared)) ∧
      ((∃ k ≤ p.fragment, ¬e'.Covers p.message k) →
        answer = .ok (.incomplete p) ∧ e'.fragments.rebuilt? p.message = none) := by
  intro history e e' answer
  obtain ⟨n, n', taken, taken', ledger, ledger', room⟩ := ledger_push keeps few
  have after : e' = (e.push index channel segment payload).2 := run_concat _ _ _
  rw [after]
  refine ⟨fun p bytes declared answer => ?_, fun p fresh placed last => ?_⟩
  · have delivered := ledger.push_completed answer
    exact ⟨ledger'.delivered_covers delivered, ledger'.delivered_whole_iff delivered⟩
  · exact ledger.push_last fresh (room fresh) placed last

theorem completed_whole_in_turn :
    let channel : Channel := { medium := .can, id := 7 }
    let events : List Event := [.push 0 channel (.first 4) [1], .push 1 channel (.consecutive 1) [2, 3]]
    let last : Event := .push 2 channel (.consecutive 2) [4]
    (run { window := 8 } (events ++ [last])).Whole (events ++ [last]) 1 [1, 2, 3, 4] := by
  intro channel events last
  obtain ⟨delivered, -⟩ := @completed_whole_iff events 2 channel (.consecutive 2) [4] 8 (by decide)
    (by decide +kernel)
  have whole := delivered ⟨1, 2, 1, true, .accepted⟩ [1, 2, 3, 4] 4 (by decide +kernel)
  have highest : highestOf (run { window := 8 } (events ++ [last])) 1 = 2 := by decide +kernel
  refine whole.2.mpr fun k above below => ?_
  rw [highest] at below
  exact absurd below (Nat.lt_asymm above)

/-- A message can be handed over with a hole: fragment 1 brings it to its length when fragment 3 is there
already and fragment 2 is not. -/
theorem not_completed_whole :
    ¬∀ (window : Nat) (events : List Event) (index : FrameIndex) (channel : Channel) (segment : Segment)
      (payload : Bytes) (p : Placement) (bytes : Bytes) (declared : Nat), .reset ∉ events →
      opened { window } 0 (events ++ [.push index channel segment payload]) < UInt32.size →
      ((run { window } events).push index channel segment payload).1 =
        .ok (.completed p bytes declared) →
      (run { window } (events ++ [.push index channel segment payload])).Whole
        (events ++ [.push index channel segment payload]) p.message bytes := by
  intro all
  let channel : Channel := { medium := .can, id := 7 }
  have whole := all 8 [.push 0 channel (.first 3) [170], .push 1 channel (.consecutive 3) [221]] 2
    channel (.consecutive 1) [187] ⟨1, 1, 1, true, .accepted⟩ [170, 187, 221] 3 (by decide)
    (by decide +kernel) (by decide +kernel)
  exact absurd whole.count (by decide +kernel)

end IsoTransport.Engine
