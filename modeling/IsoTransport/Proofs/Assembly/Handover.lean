import IsoTransport.Proofs.Assembly.Ledger

/-!
What a message consists of when it is handed over: the accepted frames, each of them once, in the order of
their fragments (`completed_assembles`).
-/

namespace IsoTransport

namespace Engine

variable {n : Nat} {events : List Event} {taken : MessageId → List Piece} {e : Engine}
  {index : FrameIndex} {channel : Channel} {segment : Segment} {payload bytes : Bytes} {p : Placement}
  {declared : Nat}

/-! ### Handing over -/

/-- What is left behind when a message is handed over with this frame. -/
structure Delivered (e : Engine) (index : FrameIndex) (p : Placement) (bytes : Bytes) (declared : Nat) :
    Prop where
  visited : e.visited[index]? = some (some p)
  accepted : p.verdict = .accepted
  rebuilt : ∃ m, e.fragments.rebuilt[p.message]? = some m ∧ m.frame = index ∧ m.payload = bytes
  declared : ∃ t, e.transfers[p.message]? = some t ∧ t.declared = declared

theorem store_completed {t : Transfer} {q : Placement}
    (answer : (e.store index t q payload).1 = .completed p bytes declared) :
    p = q ∧ t.declared = declared ∧ ∃ m, (e.store index t q payload).2.fragments.rebuilt[t.id]? = some m ∧
      m.frame = index ∧ m.payload = bytes := by
  rw [store_fragments]
  rw [store_answer] at answer
  split at answer
  · rename_i m added
    obtain ⟨frame, rebuilt⟩ := FragmentStore.add_fst_some added
    rw [Outcome.completed.injEq] at answer
    obtain ⟨rfl, same, length⟩ := answer
    exact ⟨rfl, length, m, rebuilt, frame, same⟩
  · split at answer <;> exact absurd answer (by simp)

theorem feed_stored {t t' : Transfer} {number : UInt8} {q : Placement}
    (placed : t.place e.window number payload.length = (q, t')) (accepted : q.verdict = .accepted) :
    e.feed index t number payload =
      (.ok ((e.record index t' q).store index t' q payload).1,
        ((e.record index t' q).store index t' q payload).2) := by
  simp only [feed, placed, accepted]

theorem feed_completed {t : Transfer} {number : UInt8}
    (answer : (e.feed index t number payload).1 = .ok (.completed p bytes declared)) :
    Delivered (e.feed index t number payload).2 index p bytes declared := by
  obtain ⟨id, -, -, -, message⟩ := Course.place_same t e.window number payload.length
  obtain ⟨transfers, visited, -⟩ := feed_frame e index t number payload
  rcases placed : t.place e.window number payload.length with ⟨q, t'⟩
  rw [placed] at id message transfers visited
  by_cases accepted : q.verdict = .accepted
  · rw [feed_stored placed accepted] at answer transfers visited ⊢
    obtain ⟨rfl, length, rebuilt⟩ := store_completed (Except.ok.inj answer)
    rw [id, ← message] at rebuilt
    refine ⟨?_, accepted, rebuilt, t', ?_, length⟩
    · rw [visited, Std.TreeMap.getElem?_insert_self]
    · rw [transfers, message, Std.TreeMap.getElem?_insert_self]
  · unfold feed at answer
    rw [placed] at answer
    dsimp only at answer
    split at answer
    case h_4 verdict => exact absurd verdict accepted
    all_goals exact absurd answer (by simp)

theorem Sound.replay_completed (sound : Sound n taken e) {known : Option Placement}
    (seen : e.visited[index]? = some known)
    (answer : e.replay index known = .ok (.completed p bytes declared)) :
    Delivered e index p bytes declared := by
  unfold replay at answer
  split at answer
  · exact absurd answer (by simp)
  · rename_i q
    split at answer
    case h_4 accepted =>
      split at answer
      · rename_i m found
        rw [Option.filter_eq_some_iff] at found
        obtain ⟨rebuilt, frame⟩ := found
        rw [Except.ok.injEq, Outcome.completed.injEq] at answer
        obtain ⟨rfl, same, length⟩ := answer
        refine ⟨seen, accepted, ⟨m, rebuilt, of_decide_eq_true frame, same⟩, ?_⟩
        cases present : e.transfers[q.message]? with
        | none =>
          have nothing := (sound.unknown present).2.2
          rw [FragmentStore.rebuilt?, nothing] at rebuilt
          exact absurd rebuilt.symm (Option.some_ne_none m)
        | some t =>
          rw [transfer?, present] at length
          exact ⟨t, rfl, length⟩
      · exact absurd answer (by split <;> simp)
    all_goals exact absurd answer (by simp)

theorem Ledger.push_completed (ledger : Ledger n events taken e)
    (answer : (e.push index channel segment payload).1 = .ok (.completed p bytes declared)) :
    Delivered (e.push index channel segment payload).2 index p bytes declared := by
  cases seen : e.visited[index]? with
  | some known =>
    rw [push_visited seen] at answer ⊢
    exact ledger.sound.replay_completed seen answer
  | none =>
    rcases target : e.target? index channel segment with ⟨_ | t, s⟩
    · rw [push_orphan seen target] at answer
      exact absurd answer (by simp)
    · rw [push_target seen target] at answer ⊢
      exact feed_completed answer

/-- A message in the store is complete up to the piece that came last, and has its declared length. -/
theorem Sound.rebuilt (sound : Sound n taken e) {id : MessageId} {m : Rebuilt}
    (found : e.fragments.rebuilt[id]? = some m) :
    ∃ t before x, e.transfers[id]? = some t ∧ t.Counts (taken id) ∧
      (Piece.bytesOf (taken id)).length = t.declared ∧ taken id = before ++ [x] ∧
      (Piece.closed (taken id) x).isComplete ∧ m = Piece.rebuild (taken id) x := by
  cases present : e.transfers[id]? with
  | none =>
    rw [(sound.unknown present).2.2] at found
    exact absurd found.symm (Option.some_ne_none m)
  | some t =>
    have kept := (sound.known present).2.2
    rw [found] at kept
    generalize e.fragments.pending[id]? = pending at kept
    cases kept with
    | @rebuilt before x phase counts full last whole =>
      exact ⟨t, before, x, rfl, counts, counts.accumulated.symm.trans full, last, whole, rfl⟩

/-! ### The frames of a message -/

def Accepts (e : Engine) (id : MessageId) (index : FrameIndex) : Prop :=
  ∃ p, e.placement? index = some p ∧ p.message = id ∧ p.verdict = .accepted

def fragmentOf (e : Engine) (index : FrameIndex) : Nat :=
  ((e.placement? index).map (·.fragment)).getD 0

/-- The bytes that a frame contributes to its message, from the payload that it first arrived with. -/
def bytesFrom (e : Engine) (events : List Event) (index : FrameIndex) : Bytes :=
  match e.placement? index, firstArrival? events index with
  | some p, some a => a.payload.take p.length
  | _, _ => []

/-- These are the accepted frames of the message in the order of their fragments, which are distinct, and
the bytes are theirs. -/
structure Assembles (e : Engine) (events : List Event) (id : MessageId) (frames : List FrameIndex)
    (bytes : Bytes) : Prop where
  members (index : FrameIndex) : index ∈ frames ↔ e.Accepts id index
  ordered : frames.Pairwise fun i j => e.fragmentOf i < e.fragmentOf j
  bytes : bytes = frames.flatMap (e.bytesFrom events)

theorem placement?_eq : e.placement? index = some p ↔ e.visited[index]? = some (some p) := by
  rw [placement?, Option.join_eq_some_iff]

theorem Ledger.accepts_iff (ledger : Ledger n events taken e) {id : MessageId} :
    e.Accepts id index ↔ ∃ x ∈ taken id, x.frame = index := by
  constructor
  · rintro ⟨p, placed, rfl, accepted⟩
    exact ledger.filed.counted (placement?_eq.mp placed) accepted
  · rintro ⟨x, member, rfl⟩
    obtain ⟨p, a, recorded⟩ := ledger.filed.recorded member
    exact ⟨p, placement?_eq.mpr recorded.visited, recorded.message, recorded.accepted⟩

theorem Ledger.fragmentOf_eq (ledger : Ledger n events taken e) {id : MessageId} {x : Piece}
    (member : x ∈ taken id) : e.fragmentOf x.frame = x.fragment := by
  obtain ⟨p, a, recorded⟩ := ledger.filed.recorded member
  rw [fragmentOf, placement?_eq.mpr recorded.visited, recorded.piece]
  rfl

theorem Ledger.bytesFrom_eq (ledger : Ledger n events taken e) {id : MessageId} {x : Piece}
    (member : x ∈ taken id) : e.bytesFrom events x.frame = x.bytes := by
  obtain ⟨p, a, recorded⟩ := ledger.filed.recorded member
  rw [bytesFrom, placement?_eq.mpr recorded.visited, recorded.arrived, recorded.piece]
  rfl

theorem Ledger.assembles (ledger : Ledger n events taken e) {id : MessageId} {sorted : List Piece}
    (perm : sorted.Perm (taken id)) (ordered : sorted.Pairwise (·.fragment < ·.fragment)) :
    e.Assembles events id (sorted.map (·.frame)) (Piece.bytesOf sorted) where
  members index := by
    rw [ledger.accepts_iff, List.mem_map]
    simp only [perm.mem_iff]
  ordered := by
    refine List.pairwise_map.mpr (ordered.imp_of_mem ?_)
    intro x y first second below
    rw [ledger.fragmentOf_eq (perm.mem_iff.mp first), ledger.fragmentOf_eq (perm.mem_iff.mp second)]
    exact below
  bytes := by
    rw [List.flatMap_map]
    exact List.flatMap_congr fun x member => (ledger.bytesFrom_eq (perm.mem_iff.mp member)).symm

theorem Ledger.delivered_length (ledger : Ledger n events taken e)
    (delivered : Delivered e index p bytes declared) : bytes.length = declared := by
  obtain ⟨m, rebuilt, -, rfl⟩ := delivered.rebuilt
  obtain ⟨t, found, rfl⟩ := delivered.declared
  obtain ⟨u, before, x, again, counts, full, -, -, rfl⟩ := ledger.sound.rebuilt rebuilt
  obtain rfl := Option.some.inj (found.symm.trans again)
  exact (Piece.length_payload_gather counts.distinct _).trans full

theorem Ledger.delivered_assembles (ledger : Ledger n events taken e)
    (delivered : Delivered e index p bytes declared) :
    ∃ frames, e.Assembles events p.message frames bytes := by
  obtain ⟨m, rebuilt, -, rfl⟩ := delivered.rebuilt
  obtain ⟨t, before, x, found, counts, -, -, -, rfl⟩ := ledger.sound.rebuilt rebuilt
  obtain ⟨sorted, perm, ordered⟩ := Piece.exists_sorted counts.distinct
  refine ⟨sorted.map (·.frame), ?_⟩
  rw [Piece.rebuild, Piece.closed, Piece.payload_gather perm ordered]
  exact ledger.assembles perm ordered

theorem Ledger.delivered_first (ledger : Ledger n events taken e)
    (delivered : Delivered e index p bytes declared) :
    ∃ t payload, e.transfer? p.message = some t ∧
      firstArrival? events t.firstFrame =
        some { channel := t.channel, segment := .first declared, payload } ∧
      e.Accepts p.message t.firstFrame ∧ e.fragmentOf t.firstFrame = 0 := by
  obtain ⟨t, found, rfl⟩ := delivered.declared
  obtain ⟨⟨payload, arrived⟩, x, member, first, zero⟩ := ledger.begun found
  refine ⟨t, payload, found, arrived, ledger.accepts_iff.mpr ⟨x, member, first⟩, ?_⟩
  rw [← first, ledger.fragmentOf_eq member, zero]

theorem placed_first (fresh : e.visited[index]? = none)
    (placed : (e.push index channel segment payload).2.placement? index = some p) :
    ∃ t s, e.target? index channel segment = (some t, s) ∧
      (t.place s.window segment.number payload.length).1 = p ∧ p.message = t.id := by
  rw [placement?_eq] at placed
  rcases target : e.target? index channel segment with ⟨_ | t, s⟩
  · rw [push_orphan fresh target, Std.TreeMap.getElem?_insert_self] at placed
    exact absurd (Option.some.inj placed).symm (Option.some_ne_none p)
  · obtain ⟨-, visited, -⟩ := feed_frame s index t segment.number payload
    rw [push_target fresh target, visited, Std.TreeMap.getElem?_insert_self] at placed
    obtain rfl := Option.some.inj (Option.some.inj placed)
    exact ⟨t, s, rfl, rfl, (Course.place_same t s.window segment.number payload.length).2.2.2.2⟩

theorem Ledger.accepted_new (ledger : Ledger n events taken e) (fresh : e.visited[index]? = none)
    (few : countWith n segment < UInt32.size)
    (placed : (e.push index channel segment payload).2.placement? index = some p)
    (accepted : p.verdict = .accepted) :
    e.fragments.rebuilt? p.message = none ∧
      p.fragment ∉ (e.fragments.pending.getD p.message {}).pieces := by
  obtain ⟨t, s, target, rfl, message⟩ := placed_first fresh placed
  rw [message, Std.TreeMap.getD_eq_getD_getElem?]
  cases segment with
  | first declared =>
    rw [target?_first, Prod.mk.injEq, Option.some.injEq] at target
    obtain ⟨-, pending, rebuilt⟩ := ledger.sound.unknown (ledger.sound.nextId_unused few)
    rw [← target.1]
    exact ⟨rebuilt, by simp [pending]⟩
  | consecutive number =>
    have ready := (ledger.sound.target few target).2
    rw [target?, Prod.mk.injEq] at target
    obtain ⟨-, rfl⟩ := target
    have kept := (ledger.sound.known ready.present).2.2
    have phase : t.phase = .opened := Course.opened_of_accepted ready.unfinished accepted
    obtain ⟨opened, stored, absent⟩ := kept.of_opened phase
    rw [stored, Piece.mem_gather]
    refine ⟨absent, ?_⟩
    rintro ⟨x, member, same⟩
    exact Course.placed_new opened accepted x member same

theorem ledger_push {window : Nat} (keeps : .reset ∉ events)
    (few : opened { window } 0 (events ++ [.push index channel segment payload]) < UInt32.size) :
    ∃ n n' taken taken', Ledger n events taken (run { window } events) ∧
      Ledger n' (events ++ [.push index channel segment payload]) taken'
        ((run { window } events).push index channel segment payload).2 ∧
      ((run { window } events).visited[index]? = none → countWith n segment < UInt32.size) := by
  have before : .reset ∉ events ++ [.push index channel segment payload] := by simpa using keeps
  obtain ⟨taken', ledger'⟩ := ledger_run window before few
  rw [run_concat] at ledger'
  rw [opened_concat] at few
  have earlier := Nat.lt_of_le_of_lt (le_countAfter _ _ (show Event.push .. ≠ .reset by simp)) few
  obtain ⟨taken, ledger⟩ := ledger_run window keeps earlier
  refine ⟨_, _, taken, taken', ledger, ledger', fun fresh => ?_⟩
  rw [← countAfter_push fresh channel segment payload]
  exact few

/-- A message is handed over with its declared length, and consists of the accepted frames, each once. -/
theorem completed_assembles {window : Nat} (keeps : .reset ∉ events)
    (few : opened { window } 0 (events ++ [.push index channel segment payload]) < UInt32.size) :
    let history := events ++ [.push index channel segment payload]
    let e := run { window } events
    let e' := run { window } history
    (∀ p bytes declared,
      (e.push index channel segment payload).1 = .ok (.completed p bytes declared) →
        bytes.length = declared ∧ (∃ frames, e'.Assembles history p.message frames bytes) ∧
        ∃ t first, e'.transfer? p.message = some t ∧
          firstArrival? history t.firstFrame =
            some { channel := t.channel, segment := .first declared, payload := first } ∧
          e'.Accepts p.message t.firstFrame ∧ e'.fragmentOf t.firstFrame = 0) ∧
      ∀ p, e.visited[index]? = none → e'.placement? index = some p → p.verdict = .accepted →
        e.fragments.rebuilt? p.message = none ∧
          p.fragment ∉ (e.fragments.pending.getD p.message {}).pieces := by
  intro history e e'
  obtain ⟨n, n', taken, taken', ledger, ledger', room⟩ := ledger_push keeps few
  have after : e' = (e.push index channel segment payload).2 := run_concat _ _ _
  rw [after]
  refine ⟨fun p bytes declared answer => ?_, fun p fresh placed accepted => ?_⟩
  · have delivered := ledger.push_completed answer
    exact ⟨ledger'.delivered_length delivered, ledger'.delivered_assembles delivered,
      ledger'.delivered_first delivered⟩
  · exact ledger.accepted_new fresh (room fresh) placed accepted

/-- The fragments 1 and 2 of a message change places, and its last frame is pushed again. -/
theorem completed_assembles_again :
    let channel : Channel := { medium := .can, id := 7 }
    let events : List Event := [.push 0 channel (.first 4) [1], .push 1 channel (.consecutive 2) [3, 4]]
    let again : Event := .push 2 channel (.consecutive 1) [2]
    ((run { window := 8 } (events ++ [again])).push 2 channel (.consecutive 1) [2]).1 =
        .ok (.completed ⟨1, 1, 1, true, .accepted⟩ [1, 2, 3, 4] 4) ∧
      [1, 2, 3, 4].length = 4 ∧
      ∃ frames, (run { window := 8 } (events ++ [again] ++ [again])).Assembles
        (events ++ [again] ++ [again]) 1 frames [1, 2, 3, 4] := by
  intro channel events again
  have answer : ((run { window := 8 } (events ++ [again])).push 2 channel (.consecutive 1) [2]).1 =
      .ok (.completed ⟨1, 1, 1, true, .accepted⟩ [1, 2, 3, 4] 4) := by decide +kernel
  obtain ⟨delivered, -⟩ := @completed_assembles (events ++ [again]) 2 channel (.consecutive 1) [2] 8
    (by decide) (by decide +kernel)
  obtain ⟨length, frames, -⟩ := delivered _ _ _ answer
  exact ⟨answer, length, frames⟩

end Engine

end IsoTransport
