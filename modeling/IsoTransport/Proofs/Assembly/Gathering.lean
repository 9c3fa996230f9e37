import IsoTransport.Assembly.FragmentStore.Run
import IsoTransport.Proofs.Assembly.Store

/-!
A message is rebuilt from its fragments in whatever order they come, and however often (`rebuilds_once`): by the
first one with which all are there and the last one is known, from the first bytes that came under each number.
-/

namespace IsoTransport.FragmentStore

variable {s : FragmentStore} {id : MessageId} {n : Nat} {given : List Addition} {ops : List Op}

/-! ### What is given of one message -/

def Op.addition? (id : MessageId) : Op → Option Addition
  | .add a => if a.id = id then some a else none
  | .discard _ | .clear => none

/-- The fragments of a message that are given to the store, in the order in which they come. -/
def additions (id : MessageId) (ops : List Op) : List Addition := ops.filterMap (·.addition? id)

/-- A fragment of a message that has `n` of them: only the last one may be marked as the last. -/
structure Addition.Fits (a : Addition) (n : Nat) : Prop where
  below : a.number < n
  last : a.more = false → a.number + 1 = n

instance (a : Addition) (n : Nat) : Decidable (a.Fits n) :=
  decidable_of_iff (a.number < n ∧ (a.more = false → a.number + 1 = n))
    ⟨fun fits => ⟨fits.1, fits.2⟩, fun fits => ⟨fits.below, fits.last⟩⟩

/-- A message of `n` fragments is neither dropped nor given a fragment that it does not have. Whatever is done to
other messages does not matter. -/
def Op.Fits (id : MessageId) (n : Nat) : Op → Prop
  | .add a => a.id = id → a.Fits n
  | .discard other => other ≠ id
  | .clear => False

instance (id : MessageId) (n : Nat) (op : Op) : Decidable (op.Fits id n) :=
  match op with
  | .add a => inferInstanceAs (Decidable (a.id = id → a.Fits n))
  | .discard other => inferInstanceAs (Decidable (other ≠ id))
  | .clear => inferInstanceAs (Decidable False)

def Op.Elsewhere (id : MessageId) : Op → Prop
  | .add a => a.id ≠ id
  | .discard other => other ≠ id
  | .clear => False

instance (id : MessageId) (op : Op) : Decidable (op.Elsewhere id) :=
  match op with
  | .add a => inferInstanceAs (Decidable (a.id ≠ id))
  | .discard other => inferInstanceAs (Decidable (other ≠ id))
  | .clear => inferInstanceAs (Decidable False)

/-- The number of the fragment that was marked as the last one most recently. -/
def lastMarked? (given : List Addition) : Option Nat := (given.filter (!·.more)).getLast?.map (·.number)

/-- A last fragment is known, and none up to it is missing. There may be others above it. -/
def Filled (given : List Addition) : Prop :=
  ∃ last, lastMarked? given = some last ∧ ∀ k ≤ last, ∃ a ∈ given, a.number = k

instance (given : List Addition) : Decidable (Filled given) :=
  inferInstanceAs (Decidable (∃ last, lastMarked? given = some last ∧ ∀ k ≤ last, ∃ a ∈ given, a.number = k))

/-- All fragments have come, and the last one was marked. -/
structure Gathered (n : Nat) (given : List Addition) : Prop where
  all : ∀ k < n, ∃ a ∈ given, a.number = k
  last : ∃ a ∈ given, a.more = false

instance (n : Nat) (given : List Addition) : Decidable (Gathered n given) :=
  decidable_of_iff ((∀ k < n, ∃ a ∈ given, a.number = k) ∧ ∃ a ∈ given, a.more = false)
    ⟨fun gathered => ⟨gathered.1, gathered.2⟩, fun gathered => ⟨gathered.all, gathered.last⟩⟩

/-- The bytes that came first under a number. -/
def firstBytes (given : List Addition) (k : Nat) : Bytes :=
  ((given.find? (·.number = k)).map (·.data)).getD []

theorem Op.addition?_some {op : Op} {a : Addition} (found : op.addition? id = some a) : op = .add a ∧ a.id = id := by
  cases op with
  | discard other => cases found
  | clear => cases found
  | add b =>
    rw [Op.addition?, Option.ite_none_right_eq_some] at found
    obtain ⟨same, equal⟩ := found
    obtain rfl := Option.some.inj equal
    exact ⟨rfl, same⟩

theorem additions_append (id : MessageId) (before after : List Op) :
    additions id (before ++ after) = additions id before ++ additions id after :=
  List.filterMap_append

theorem additions_fit (fits : ∀ op ∈ ops, op.Fits id n) : ∀ a ∈ additions id ops, a.Fits n := by
  intro a member
  obtain ⟨op, given, found⟩ := List.mem_filterMap.mp member
  obtain ⟨rfl, same⟩ := Op.addition?_some found
  exact fits _ given same

theorem Gathered.append (gathered : Gathered n given) (later : List Addition) : Gathered n (given ++ later) where
  all k below := by
    obtain ⟨a, member, number⟩ := gathered.all k below
    exact ⟨a, List.mem_append_left _ member, number⟩
  last := by
    obtain ⟨a, member, last⟩ := gathered.last
    exact ⟨a, List.mem_append_left _ member, last⟩

/-! ### What is stored of it -/

/-- What is stored of a message that is not complete. -/
def stored (given : List Addition) : Pending :=
  given.foldl (fun p a => p.insert a.number a.data a.more) {}

theorem stored_concat (given : List Addition) (a : Addition) :
    stored (given ++ [a]) = (stored given).insert a.number a.data a.more := by
  simp [stored]

theorem stored_piece (given : List Addition) (k : Nat) :
    (stored given).pieces[k]? = (given.find? (·.number = k)).map (·.data) := by
  induction given using List.reverseRecOn with
  | nil => simp [stored]
  | append_singleton given a ih =>
    rw [stored_concat, Pending.insert, Std.TreeMap.getElem?_insertIfNew, List.find?_append]
    cases known : given.find? (·.number = k) with
    | some b =>
      rw [known, Option.map_some] at ih
      have old : k ∈ (stored given).pieces := by simp [← Std.TreeMap.isSome_getElem?_iff_mem, ih]
      have kept : ¬(compare a.number k = .eq ∧ a.number ∉ (stored given).pieces) := by
        rintro ⟨same, new⟩
        rw [Nat.compare_eq_eq.mp same] at new
        exact new old
      rw [if_neg kept, ih]
      rfl
    | none =>
      rw [known, Option.map_none] at ih
      have new : k ∉ (stored given).pieces := by simp [← Std.TreeMap.isSome_getElem?_iff_mem, ih]
      by_cases here : a.number = k
      · subst here
        simp [new]
      · simp [here, ih]

theorem mem_stored {k : Nat} : k ∈ (stored given).pieces ↔ ∃ a ∈ given, a.number = k := by
  rw [← Std.TreeMap.isSome_getElem?_iff_mem, stored_piece]
  simp

theorem lastMarked?_concat (given : List Addition) (a : Addition) :
    lastMarked? (given ++ [a]) = if a.more then lastMarked? given else some a.number := by
  cases more : a.more <;> simp [lastMarked?, more]

theorem stored_last (given : List Addition) : (stored given).last = lastMarked? given := by
  induction given using List.reverseRecOn with
  | nil => rfl
  | append_singleton given a ih => rw [stored_concat, Pending.insert, ih, lastMarked?_concat]

/-- The store takes a message for complete when none of its fragments is missing up to the marked one. -/
theorem isComplete_stored : (stored given).isComplete ↔ Filled given := by
  simp only [Pending.isComplete_iff, stored_last, mem_stored, Filled]

theorem marked_of_lastMarked? {last : Nat} (marked : lastMarked? given = some last) :
    ∃ a ∈ given, a.more = false ∧ a.number = last := by
  obtain ⟨a, found, number⟩ := Option.map_eq_some_iff.mp marked
  have member := List.mem_filter.mp (List.mem_of_getLast? found)
  exact ⟨a, member.1, by simpa using member.2, number⟩

/-- Where only the last fragment may be marked, that is when all have come. -/
theorem filled_iff_gathered (fits : ∀ a ∈ given, a.Fits n) : Filled given ↔ Gathered n given := by
  constructor
  · rintro ⟨last, marked, all⟩
    obtain ⟨a, member, more, rfl⟩ := marked_of_lastMarked? marked
    have count := (fits a member).last more
    exact ⟨fun k below => all k (by omega), a, member, more⟩
  · rintro ⟨all, a, member, more⟩
    have some_ : (lastMarked? given).isSome := by
      rw [lastMarked?, Option.isSome_map, List.getLast?_isSome]
      exact List.ne_nil_of_mem (List.mem_filter.mpr ⟨member, by simp [more]⟩)
    obtain ⟨last, marked⟩ := Option.isSome_iff_exists.mp some_
    obtain ⟨b, known, more', rfl⟩ := marked_of_lastMarked? marked
    have count := (fits b known).last more'
    exact ⟨b.number, marked, fun k le => all k (by omega)⟩

theorem keys_stored (fits : ∀ a ∈ given, a.Fits n) (gathered : Gathered n given) :
    (stored given).pieces.keys = List.range n := by
  have ordered : (stored given).pieces.keys.Pairwise (· < ·) :=
    Std.TreeMap.ordered_keys.imp fun below => Nat.compare_eq_lt.mp below
  apply sorted_eq_range ordered
  intro k
  rw [Std.TreeMap.mem_keys, mem_stored]
  constructor
  · rintro ⟨a, member, rfl⟩
    exact (fits a member).below
  · intro below
    exact gathered.all k below

/-- The message that is rebuilt when the last missing fragment comes with a frame. -/
def rebuild (n : Nat) (given : List Addition) (frame : FrameIndex) : Rebuilt where
  payload := (List.range n).flatMap (firstBytes given)
  frame := frame
  count := n

theorem rebuild_eq (fits : ∀ a ∈ given, a.Fits n) (gathered : Gathered n given) (frame : FrameIndex) :
    { payload := (stored given).payload, frame, count := (stored given).pieces.size } = rebuild n given frame := by
  have keys := keys_stored fits gathered
  have values : (stored given).pieces.values = (List.range n).map (firstBytes given) := by
    rw [Piece.values_eq, ← keys, ← Std.TreeMap.map_fst_toList_eq_keys, List.map_map]
    apply List.map_congr_left
    intro entry member
    have found := Std.TreeMap.mem_toList_iff_getElem?_eq_some.mp member
    rw [stored_piece] at found
    simp [firstBytes, found]
  have size : (stored given).pieces.size = n := by
    rw [← Std.TreeMap.length_keys, keys, List.length_range]
  rw [rebuild, size, Pending.payload, values, List.flatMap]

/-! ### Runs -/

theorem step_elsewhere {op : Op} (elsewhere : op.Elsewhere id) :
    (s.step op).2.pending[id]? = s.pending[id]? ∧ (s.step op).2.rebuilt[id]? = s.rebuilt[id]? := by
  cases op with
  | clear => exact absurd elsewhere not_false
  | discard other => exact ⟨discard_pending_other elsewhere, rfl⟩
  | add a => exact ⟨add_pending_other elsewhere .., add_rebuilt_other elsewhere ..⟩

theorem Op.Fits.elsewhere {op : Op} (fits : op.Fits id n) (foreign : op.addition? id = none) : op.Elsewhere id := by
  cases op with
  | clear => exact fits
  | discard other => exact fits
  | add a =>
    intro same
    simp [Op.addition?, same] at foreign

theorem step_late {a : Addition} {m : Rebuilt} (found : s.rebuilt[a.id]? = some m) : s.step (.add a) = (none, s) := by
  rw [step, add_known found]

/-- A message that was rebuilt stays as it is, whatever comes later, until the store is cleared. -/
theorem run_rebuilt {m : Rebuilt} (found : s.rebuilt[id]? = some m) (keeps : .clear ∉ ops) :
    (s.run ops).rebuilt[id]? = some m := by
  refine Mealy.run_keeps step (fun s => s.rebuilt[id]? = some m) (fun op member s found => ?_) found
  cases op with
  | clear => exact absurd member keeps
  | discard other => exact found
  | add a =>
    by_cases here : a.id = id
    · subst here
      rw [step_late found]
      exact found
    · exact (add_rebuilt_other here ..).trans found

/-- What the store has of a message of which these fragments were given. -/
structure Has (s : FragmentStore) (id : MessageId) (given : List Addition) : Prop where
  absent : s.rebuilt[id]? = none
  pending : s.pending[id]?.getD {} = stored given

theorem Has.step_waiting {a : Addition} (has : s.Has a.id given) (lacking : ¬Filled (given ++ [a])) :
    s.step (.add a) = (none, { s with pending := s.pending.insert a.id (stored (given ++ [a])) }) := by
  rw [step, add_absent has.absent, has.pending, ← stored_concat]
  exact if_neg (mt isComplete_stored.mp lacking)

theorem Has.step_filled {a : Addition} (has : s.Has a.id given) (filled : Filled (given ++ [a])) :
    s.step (.add a) =
      let p := stored (given ++ [a])
      (some { payload := p.payload, frame := a.frame, count := p.pieces.size },
        { pending := s.pending.erase a.id
          rebuilt := s.rebuilt.insert a.id { payload := p.payload, frame := a.frame, count := p.pieces.size } }) := by
  rw [step, add_absent has.absent, has.pending, ← stored_concat]
  exact if_pos (isComplete_stored.mpr filled)

theorem Has.more {a : Addition} (has : s.Has a.id given) (fits : ∀ b ∈ given ++ [a], b.Fits n)
    (lacking : ¬Gathered n (given ++ [a])) :
    (s.step (.add a)).1 = none ∧ (s.step (.add a)).2.Has a.id (given ++ [a]) := by
  rw [has.step_waiting (mt (filled_iff_gathered fits).mp lacking)]
  refine ⟨rfl, has.absent, ?_⟩
  simp

theorem Has.complete {a : Addition} (has : s.Has a.id given) (fits : ∀ b ∈ given ++ [a], b.Fits n)
    (gathered : Gathered n (given ++ [a])) :
    (s.step (.add a)).1 = some (rebuild n (given ++ [a]) a.frame) ∧
      (s.step (.add a)).2.rebuilt[a.id]? = some (rebuild n (given ++ [a]) a.frame) := by
  rw [has.step_filled ((filled_iff_gathered fits).mpr gathered)]
  dsimp only
  rw [rebuild_eq fits gathered]
  exact ⟨rfl, Std.TreeMap.getElem?_insert_self⟩

/-- The store keeps what is given of a message until that is all of it, and then the message. -/
theorem run_follows (empty : s.Has id []) (fits : ∀ op ∈ ops, op.Fits id n) :
    (¬Gathered n (additions id ops) → (s.run ops).Has id (additions id ops)) ∧
      (Gathered n (additions id ops) → ∃ m, (s.run ops).rebuilt[id]? = some m) := by
  induction ops using List.reverseRecOn with
  | nil => exact ⟨fun _ => empty, fun gathered => absurd gathered.last (by simp [additions])⟩
  | append_singleton ops op ih =>
    obtain ⟨kept, done⟩ := ih fun op' member => fits op' (List.mem_append_left _ member)
    have all := additions_fit fits
    rw [additions_append] at all ⊢
    rw [run_append]
    cases mine : op.addition? id with
    | none =>
      have same : additions id [op] = [] := by simp [additions, mine]
      obtain ⟨pending, rebuilt⟩ := step_elsewhere (s := s.run ops) ((fits op (by simp)).elsewhere mine)
      rw [same, List.append_nil]
      refine ⟨fun lacking => ?_, fun gathered => ?_⟩
      · have has := kept lacking
        exact ⟨rebuilt.trans has.absent, (congrArg (·.getD {}) pending).trans has.pending⟩
      · obtain ⟨m, found⟩ := done gathered
        exact ⟨m, rebuilt.trans found⟩
    | some a =>
      have same : additions id [op] = [a] := by simp [additions, mine]
      obtain ⟨rfl, rfl⟩ := Op.addition?_some mine
      rw [same] at all ⊢
      refine ⟨fun lacking => ?_, fun gathered => ?_⟩
      · have has := kept fun gathered => lacking (gathered.append [a])
        exact (has.more all lacking).2
      · by_cases before : Gathered n (additions a.id ops)
        · obtain ⟨m, found⟩ := done before
          exact ⟨m, run_rebuilt found (by simp)⟩
        · exact ⟨_, ((kept before).complete all gathered).2⟩

/-- A message of which nothing is stored is rebuilt by the first fragment after which all `n` have been given and the
last one is known, and by no other: from the first bytes given under each number, with the frame of that fragment.
It is not reported before, and stays the same after. -/
theorem rebuilds_once (s : FragmentStore) (n : Nat) (before after : List Op) (a : Addition)
    (unstored : s.pending[a.id]? = none) (unreported : s.rebuilt? a.id = none)
    (fits : ∀ op ∈ before ++ .add a :: after, op.Fits a.id n) :
    let given := additions a.id before
    let answer := ((s.run before).step (.add a)).1
    (¬Gathered n given → (s.run before).rebuilt? a.id = none) ∧
      (Gathered n given ∨ ¬Gathered n (given ++ [a]) → answer = none) ∧
      (¬Gathered n given → Gathered n (given ++ [a]) →
        let m := rebuild n (given ++ [a]) a.frame
        answer = some m ∧ (s.run (before ++ .add a :: after)).rebuilt? a.id = some m) := by
  intro given answer
  have empty : s.Has a.id [] := ⟨unreported, by rw [unstored]; rfl⟩
  have fits_before : ∀ op ∈ before ++ [.add a], op.Fits a.id n := by
    intro op member
    apply fits
    rw [List.append_cons]
    exact List.mem_append_left _ member
  have all : ∀ b ∈ given ++ [a], b.Fits n := by
    have all := additions_fit fits_before
    rw [additions_append] at all
    simpa [additions, Op.addition?, given] using all
  obtain ⟨kept, done⟩ := run_follows (n := n) empty fun op member => fits_before op (List.mem_append_left _ member)
  refine ⟨fun lacking => (kept lacking).absent, ?_, ?_⟩
  · rintro (gathered | lacking)
    · obtain ⟨m, found⟩ := done gathered
      exact congrArg Prod.fst (step_late found)
    · have has := kept fun gathered => lacking (gathered.append [a])
      exact (has.more all lacking).1
  · intro lacking gathered m
    obtain ⟨answered, found⟩ := (kept lacking).complete all gathered
    refine ⟨answered, ?_⟩
    rw [rebuilt?, run_append]
    apply run_rebuilt found
    intro cleared
    exact fits .clear (by simp [cleared])

/-- The last fragment comes first and unmarked, another copy of it is the one that is marked, and the message between
them is dropped. -/
theorem rebuilds_once_scattered :
    let before : List Op :=
      [.add ⟨7, 2, 10, [1], true⟩, .add ⟨9, 0, 11, [5], true⟩, .add ⟨7, 0, 12, [2, 3], true⟩,
        .add ⟨7, 2, 13, [9], false⟩, .discard 9]
    let a : Addition := ⟨7, 1, 14, [4], true⟩
    let after : List Op := [.add ⟨7, 0, 15, [8], true⟩, .add ⟨9, 1, 16, [6], false⟩]
    let m : Rebuilt := { payload := [2, 3, 4, 1], frame := 14, count := 3 }
    (({} : FragmentStore).run before).rebuilt? 7 = none ∧
      ((({} : FragmentStore).run before).step (.add a)).1 = some m ∧
      (({} : FragmentStore).run (before ++ .add a :: after)).rebuilt? 7 = some m := by
  intro before a after m
  obtain ⟨unreported, -, once⟩ :=
    rebuilds_once {} 3 before after a (by decide +kernel) (by decide +kernel) (by decide)
  exact ⟨unreported (by decide), once (by decide) (by decide)⟩

end IsoTransport.FragmentStore
