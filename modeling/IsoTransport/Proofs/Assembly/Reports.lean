import IsoTransport.Proofs.Assembly.Gathering

/-!
What a fragment store tells of a message after any operations (`reports_consistent`): it is what the fragments tell
that were given since the message was last dropped, until they make it up. Any of them may be marked as the last one;
the latest mark counts.
-/

namespace IsoTransport.FragmentStore

variable {s : FragmentStore} {id : MessageId} {given : List Addition}

/-! ### What is given since the last drop -/

def follow (id : MessageId) (given : List Addition) : Op → List Addition
  | .add a => if a.id = id then given ++ [a] else given
  | .discard other => if other = id then [] else given
  | .clear => []

/-- The fragments of a message that are given to the store after it was last dropped, or the store was cleared. -/
def sinceDropped (id : MessageId) (ops : List Op) : List Addition := ops.foldl (follow id) []

/-- The number up to which fragments are asked for: the marked one, or else the highest one. -/
def reach (given : List Addition) : Nat := ((lastMarked? given).or (given.map (·.number)).max?).getD 0

/-- What the store tells of a message fits together, and is told by these fragments. -/
structure Tells (s : FragmentStore) (id : MessageId) (given : List Addition) : Prop where
  apart {m : Rebuilt} : s.rebuilt? id = some m → s.buffered id = 0
  buffered : s.rebuilt? id = none → s.buffered id = (given.map (·.number)).dedup.length
  idle : s.buffered id = 0 → s.missing id = []
  ordered : (s.missing id).Pairwise (· < ·)
  missing {k : Nat} : s.buffered id ≠ 0 → (k ∈ s.missing id ↔ k ≤ reach given ∧ ∀ a ∈ given, a.number ≠ k)
  /-- A message whose last fragment is known is stored only as long as it lacks one. -/
  lacking {last : Nat} : s.buffered id ≠ 0 → lastMarked? given = some last → s.missing id ≠ []

theorem sinceDropped_concat (id : MessageId) (ops : List Op) (op : Op) :
    sinceDropped id (ops ++ [op]) = follow id (sinceDropped id ops) op := by
  simp [sinceDropped]

/-! ### What is told by the stored fragments -/

theorem maxKey?_stored (given : List Addition) :
    (stored given).pieces.maxKey? = (given.map (·.number)).max? := by
  apply Option.ext
  intro top
  rw [Std.TreeMap.maxKey?_eq_some_iff_mem_and_forall, List.max?_eq_some_iff, List.mem_map, mem_stored]
  simp [mem_stored, Nat.isLE_compare]

theorem mem_missing_stored {k : Nat} :
    k ∈ (stored given).missing ↔ k ≤ reach given ∧ ∀ a ∈ given, a.number ≠ k := by
  rw [Pending.mem_missing, stored_last, maxKey?_stored, mem_stored, reach]
  simp only [not_exists, not_and, ne_eq]

theorem size_stored (given : List Addition) :
    (stored given).pieces.size = (given.map (·.number)).dedup.length := by
  have distinct : (stored given).pieces.keys.Nodup :=
    Std.TreeMap.ordered_keys.imp fun below => Nat.ne_of_lt (Nat.compare_eq_lt.mp below)
  have same : (stored given).pieces.keys.Perm (given.map (·.number)).dedup := by
    rw [List.perm_ext_iff_of_nodup distinct (List.nodup_dedup _)]
    intro k
    rw [Std.TreeMap.mem_keys, mem_stored, List.mem_dedup, List.mem_map]
  rw [← Std.TreeMap.length_keys, same.length_eq]

theorem size_stored_ne_zero (nonempty : given ≠ []) : (stored given).pieces.size ≠ 0 := by
  rw [size_stored]
  simpa using nonempty

/-! ### What the store has of a message -/

/-- A message was rebuilt and nothing is stored of it, or these fragments are stored and do not make it up. -/
inductive Entry (s : FragmentStore) (id : MessageId) : List Addition → Prop where
  | rebuilt {given : List Addition} {m : Rebuilt} (reported : s.rebuilt[id]? = some m)
      (unstored : s.pending[id]? = none) : Entry s id given
  | empty (unreported : s.rebuilt[id]? = none) (unstored : s.pending[id]? = none) : Entry s id []
  | waiting {given : List Addition} (unreported : s.rebuilt[id]? = none)
      (kept : s.pending[id]? = some (stored given)) (nonempty : given ≠ []) (lacking : ¬Filled given) :
      Entry s id given

theorem Entry.has (entry : s.Entry id given) (unreported : s.rebuilt[id]? = none) : s.Has id given := by
  refine ⟨unreported, ?_⟩
  cases entry with
  | rebuilt reported =>
    rw [reported] at unreported
    cases unreported
  | empty _ unstored =>
    rw [unstored]
    rfl
  | waiting _ kept =>
    rw [kept]
    rfl

theorem Entry.unstored {m : Rebuilt} (entry : s.Entry id given) (reported : s.rebuilt[id]? = some m) :
    s.pending[id]? = none := by
  cases entry with
  | rebuilt _ unstored => exact unstored
  | empty unreported | waiting unreported =>
    rw [reported] at unreported
    cases unreported

theorem Entry.congr {other : FragmentStore} (entry : s.Entry id given)
    (pending : other.pending[id]? = s.pending[id]?) (rebuilt : other.rebuilt[id]? = s.rebuilt[id]?) :
    other.Entry id given := by
  cases entry with
  | rebuilt reported unstored => exact .rebuilt (rebuilt.trans reported) (pending.trans unstored)
  | empty unreported unstored => exact .empty (rebuilt.trans unreported) (pending.trans unstored)
  | waiting unreported kept nonempty lacking =>
    exact .waiting (rebuilt.trans unreported) (pending.trans kept) nonempty lacking

theorem entry_discard (s : FragmentStore) (id : MessageId) : (s.discard id).Entry id [] := by
  cases known : s.rebuilt[id]? with
  | none => exact .empty known discard_pending_self
  | some m => exact .rebuilt known discard_pending_self

/-- A fragment brings a message forth exactly when it is the one with which none is missing. -/
theorem Has.added {a : Addition} (has : s.Has a.id given) :
    ((s.step (.add a)).1.isSome ↔ Filled (given ++ [a])) ∧ (s.step (.add a)).2.Entry a.id (given ++ [a]) := by
  by_cases filled : Filled (given ++ [a])
  · rw [has.step_filled filled]
    exact ⟨by simp [filled], .rebuilt Std.TreeMap.getElem?_insert_self Std.TreeMap.getElem?_erase_self⟩
  · rw [has.step_waiting filled]
    exact ⟨by simp [filled], .waiting has.absent Std.TreeMap.getElem?_insert_self (by simp) filled⟩

theorem Entry.step (entry : s.Entry id given) (op : Op) : (s.step op).2.Entry id (follow id given op) := by
  cases op with
  | clear => exact .empty Std.TreeMap.getElem?_emptyc Std.TreeMap.getElem?_emptyc
  | discard other =>
    rw [follow]
    split
    · rename_i here
      subst here
      exact s.entry_discard other
    · rename_i elsewhere
      exact entry.congr (discard_pending_other elsewhere) rfl
  | add a =>
    rw [follow]
    split
    · rename_i here
      subst here
      cases known : s.rebuilt[a.id]? with
      | none => exact (entry.has known).added.2
      | some m =>
        -- a late fragment counts as given, but the store does not take it
        rw [step_late known]
        exact .rebuilt known (entry.unstored known)
    · rename_i elsewhere
      exact entry.congr (add_pending_other elsewhere ..) (add_rebuilt_other elsewhere ..)

theorem run_entry (id : MessageId) (ops : List Op) :
    (({} : FragmentStore).run ops).Entry id (sinceDropped id ops) := by
  induction ops using List.reverseRecOn with
  | nil => exact .empty Std.TreeMap.getElem?_emptyc Std.TreeMap.getElem?_emptyc
  | append_singleton ops op ih =>
    rw [run_append, sinceDropped_concat]
    exact ih.step op

/-! ### What the store tells of it -/

theorem tells_unstored (unstored : s.pending[id]? = none) (nothing : s.rebuilt? id = none → given = []) :
    s.Tells id given := by
  have buffered : s.buffered id = 0 := by simp [FragmentStore.buffered, unstored]
  have missing : s.missing id = [] := by simp [FragmentStore.missing, unstored]
  constructor
  case apart => exact fun _ => buffered
  case buffered =>
    intro unreported
    rw [buffered, nothing unreported]
    rfl
  case idle => exact fun _ => missing
  case ordered =>
    rw [missing]
    exact List.Pairwise.nil
  case missing => exact fun stored => absurd buffered stored
  case lacking => exact fun stored => absurd buffered stored

theorem tells_waiting (unreported : s.rebuilt[id]? = none) (kept : s.pending[id]? = some (stored given))
    (nonempty : given ≠ []) (lacking : ¬Filled given) : s.Tells id given := by
  have buffered : s.buffered id = (stored given).pieces.size := by simp [FragmentStore.buffered, kept]
  have missing : s.missing id = (stored given).missing := by simp [FragmentStore.missing, kept]
  constructor
  case apart =>
    intro m reported
    rw [rebuilt?, unreported] at reported
    cases reported
  case buffered => exact fun _ => buffered.trans (size_stored given)
  case idle =>
    intro idle
    exact absurd (buffered.symm.trans idle) (size_stored_ne_zero nonempty)
  case ordered =>
    rw [missing]
    exact Pending.pairwise_missing
  case missing =>
    intro k _
    rw [missing]
    exact mem_missing_stored
  case lacking =>
    intro last _ marked
    rw [missing]
    exact Pending.missing_ne_nil ((stored_last given).trans marked) (mt isComplete_stored.mp lacking)

theorem Entry.tells (entry : s.Entry id given) : s.Tells id given := by
  cases entry with
  | rebuilt reported unstored =>
    apply tells_unstored unstored
    intro unreported
    rw [rebuilt?, reported] at unreported
    cases unreported
  | empty _ unstored => exact tells_unstored unstored fun _ => rfl
  | waiting unreported kept nonempty lacking => exact tells_waiting unreported kept nonempty lacking

theorem Entry.isSome_add {a : Addition} (entry : s.Entry a.id given) :
    (s.step (.add a)).1.isSome ↔ s.rebuilt? a.id = none ∧ Filled (given ++ [a]) := by
  cases known : s.rebuilt[a.id]? with
  | none => simpa [rebuilt?, known] using (entry.has known).added.1
  | some m => simp [rebuilt?, known, step_late known]

theorem run_elsewhere {ops : List Op} (elsewhere : ∀ op ∈ ops, op.Elsewhere id) :
    (s.run ops).pending[id]? = s.pending[id]? ∧ (s.run ops).rebuilt[id]? = s.rebuilt[id]? := by
  refine Mealy.run_keeps step
    (fun t => t.pending[id]? = s.pending[id]? ∧ t.rebuilt[id]? = s.rebuilt[id]?) (fun op member t same => ?_) ⟨rfl, rfl⟩
  obtain ⟨pending, rebuilt⟩ := step_elsewhere (s := t) (elsewhere op member)
  exact ⟨pending.trans same.1, rebuilt.trans same.2⟩

/-- After any operations no message is both stored and rebuilt, and what is stored and missing is told by the fragments
given since it was last dropped. A fragment brings the message forth exactly when it was not rebuilt before and none
is missing any more up to the marked one; the message then stays as it is until the store is cleared. What is done to
other messages changes nothing. -/
theorem reports_consistent (ops : List Op) (id : MessageId) :
    let s := ({} : FragmentStore).run ops
    let given := sinceDropped id ops
    s.Tells id given ∧
      (∀ a : Addition, a.id = id →
        ((s.step (.add a)).1.isSome ↔ s.rebuilt? id = none ∧ Filled (given ++ [a])) ∧
          (s.step (.add a)).2.rebuilt? id = (s.step (.add a)).1.or (s.rebuilt? id)) ∧
      (∀ m later, s.rebuilt? id = some m → .clear ∉ later → (s.run later).rebuilt? id = some m) ∧
      ∀ later, (∀ op ∈ later, op.Elsewhere id) →
        (s.run later).buffered id = s.buffered id ∧ (s.run later).missing id = s.missing id ∧
          (s.run later).rebuilt? id = s.rebuilt? id := by
  intro s given
  have entry : s.Entry id given := run_entry id ops
  refine ⟨entry.tells, ?add, fun m later reported keeps => run_rebuilt reported keeps, ?other⟩
  case add =>
    rintro a rfl
    exact ⟨entry.isSome_add, add_rebuilt_self⟩
  case other =>
    intro later elsewhere
    obtain ⟨pending, rebuilt⟩ := run_elsewhere (s := s) elsewhere
    exact ⟨by rw [buffered, buffered, pending], by rw [missing, missing, pending], rebuilt⟩

/-- Message 7 is dropped and begun again, its mark is set to 5 and then back to 2, and a fragment above the mark is
kept. Message 9 is rebuilt and gets a late fragment. -/
theorem reports_consistent_remarked :
    let ops : List Op :=
      [.add ⟨7, 3, 10, [9], false⟩, .discard 7, .add ⟨9, 0, 11, [1], false⟩, .add ⟨9, 1, 12, [2], false⟩,
        .add ⟨7, 0, 13, [4], true⟩, .add ⟨7, 5, 14, [8], false⟩, .add ⟨7, 2, 15, [6], false⟩,
        .add ⟨7, 0, 16, [7], true⟩]
    let s := ({} : FragmentStore).run ops
    let a : Addition := ⟨7, 1, 17, [5], true⟩
    s.buffered 7 = 3 ∧ (∀ k, k ∈ s.missing 7 ↔ k = 1) ∧ (s.step (.add a)).1.isSome ∧
      s.buffered 9 = 0 ∧
        (s.run [.add ⟨9, 0, 18, [3], false⟩, .discard 9]).rebuilt? 9 = some ⟨[1], 11, 1⟩ ∧
      (s.run [.add ⟨9, 2, 19, [], true⟩, .discard 9]).missing 7 = s.missing 7 := by
  intro ops s a
  obtain ⟨tells, adds, -, others⟩ := reports_consistent ops 7
  obtain ⟨tells9, -, stays, -⟩ := reports_consistent ops 9
  have unreported : s.rebuilt? 7 = none := by decide +kernel
  have reported : s.rebuilt? 9 = some ⟨[1], 11, 1⟩ := by decide +kernel
  have buffered : s.buffered 7 = 3 := (tells.buffered unreported).trans (by decide +kernel)
  refine ⟨buffered, fun k => ?_, ?_, tells9.apart reported, stays _ _ reported (by decide), ?_⟩
  · have top : reach (sinceDropped 7 ops) = 2 := by decide
    have numbers : (sinceDropped 7 ops).map (·.number) = [0, 5, 2, 0] := by decide
    have come (k : Nat) : (∀ b ∈ sinceDropped 7 ops, b.number ≠ k) ↔ k ∉ (sinceDropped 7 ops).map (·.number) := by
      simp
    rw [tells.missing (by rw [buffered]; decide), top, come, numbers]
    simp only [List.mem_cons, List.not_mem_nil, or_false]
    omega
  · exact (adds a rfl).1.mpr ⟨unreported, by decide⟩
  · exact (others _ (by decide)).2.1

end IsoTransport.FragmentStore
