import IsoTransport.Proofs.Assembly.Arrival

/-!
The orders in which the frames of a message may come. In order, every segmentation is put together again
(`answersOn_in_order`). Out of order the padding is cut off the frame that comes last, which need not be
the last of the message (`handed_any_order_iff`).
-/

namespace IsoTransport

namespace Chunks

variable {m : Chunks} {declared window n : Nat}

theorem joined_append (before after : List Nat) :
    m.joined (before ++ after) = m.joined before ++ m.joined after := by
  simp [joined]

theorem joined_nil : m.joined [] = [] := rfl

theorem length_joined_perm {numbers order : List Nat} (perm : numbers.Perm order) :
    (m.joined numbers).length = (m.joined order).length :=
  (perm.flatMap_right _).length_eq

theorem range_split {j k : Nat} (le : j ≤ k) : List.range k = List.range j ++ List.range' j (k - j) := by
  have split := List.range'_append_1 (s := 0) (m := j) (n := k - j)
  rw [Nat.zero_add, Nat.add_sub_of_le le] at split
  rw [List.range_eq_range', List.range_eq_range', split]

theorem range_around {k : Nat} (le : k ≤ n) :
    List.range (n + 1) = List.range k ++ k :: List.range' (k + 1) (n - k) := by
  rw [range_split (Nat.le_succ_of_le le), Nat.succ_sub le, List.range'_succ]

theorem joined_around {k : Nat} (le : k ≤ n) :
    m.joined (List.range (n + 1)) =
      m.joined (List.range k) ++ m.bytes k ++ m.joined (List.range' (k + 1) (n - k)) := by
  rw [range_around le, joined_append]
  simp [joined]

theorem joined_cut {k : Nat} (le : k ≤ n) (kept : Nat) :
    ((List.range (n + 1)).flatMap fun j => if j = k then (m.bytes j).take kept else m.bytes j) =
      m.joined (List.range k) ++ (m.bytes k).take kept ++ m.joined (List.range' (k + 1) (n - k)) := by
  have below : ∀ j ∈ List.range k, (if j = k then (m.bytes j).take kept else m.bytes j) = m.bytes j :=
    fun j member => if_neg (Nat.ne_of_lt (List.mem_range.mp member))
  have above : ∀ j ∈ List.range' (k + 1) (n - k),
      (if j = k then (m.bytes j).take kept else m.bytes j) = m.bytes j := by
    intro j member
    have bounds := List.mem_range'_1.mp member
    exact if_neg (by omega)
  rw [range_around le, List.flatMap_append, List.flatMap_cons, if_pos rfl,
    List.flatMap_congr below, List.flatMap_congr above, ← List.append_assoc]
  rfl

/-! ### In order -/

theorem foldl_max_range (k : Nat) : (List.range k).foldl max 0 = k - 1 := by
  induction k with
  | zero => rfl
  | succ k ih =>
    rw [List.range_succ, List.foldl_append, ih]
    simp

theorem arrives_range (wide : 1 ≤ window) (counted : n < 16 * Transfer.roundLimit) :
    Arrives window n (List.range (n + 1)) where
  perm := .refl _
  counted := counted
  turn := by
    refine List.Pairwise.imp ?_ List.pairwise_lt_range
    intro j k below _
    exact below
  near i bound := by
    have below : i ≤ n := by simpa using bound
    rw [List.getElem_range, List.take_range, foldl_max_range, Nat.min_eq_left (Nat.le_succ_of_le below)]
    omega

/-- A message whose chunks come in order is handed over with the one that makes up the declared length. -/
theorem answers_range_append {reach : Nat} (id : MessageId) (channel : Channel) (firstFrame : FrameIndex)
    (wide : 1 ≤ window) (counted : reach < 16 * Transfer.roundLimit)
    (short : ∀ k < reach, (m.joined (List.range (k + 1))).length < declared)
    (enough : declared ≤ (m.joined (List.range (reach + 1))).length) (frames : List Course.Sent) :
    Course.answers window (some { transfer := { id, channel, firstFrame, declared } })
        ((List.range (reach + 1)).map m.sent ++ frames) =
      (List.range reach).map (fun k => some (.ok (.buffered (m.openPlace id k)))) ++
        some (.ok (.completed (m.lastPlace id declared (List.range reach) reach)
          ((m.joined (List.range (reach + 1))).take declared) declared)) ::
        List.replicate frames.length (some (.ok .orphaned)) := by
  have arrives := arrives_range wide counted
  have fits : ∀ a j b, List.range reach ++ [reach] = a ++ j :: b → Fits window a j := by
    intro a j b split
    rw [← List.range_succ] at split
    exact arrives.fits split
  have before : List.range reach = [] ∨ (m.joined (List.range reach)).length < declared := by
    rcases reach with _ | k
    · exact .inl rfl
    · exact .inr (short k (Nat.lt_succ_self k))
  have room : (m.joined (List.range reach)).length ≤ declared := by
    rcases before with none | below
    · simp [none, joined]
    · exact Nat.le_of_lt below
  have payload := joined_around (m := m) (Nat.le_refl reach)
  rw [Nat.sub_self, List.range'_zero, joined_nil, List.append_nil] at payload
  have answers := (m.reached_new id channel firstFrame declared).answers_arrival fits before
    (by rwa [List.nil_append, ← List.range_succ]) frames
  rw [List.nil_append, closing_eq (by rw [List.range_succ]), joined_cut (Nat.le_refl reach), Nat.sub_self,
    List.range'_zero, joined_nil, List.append_nil] at answers
  rw [List.range_succ, List.map_append, List.map_singleton, List.append_assoc, List.singleton_append, answers,
    ← List.range_succ, payload, List.take_append, List.take_of_length_le room]

theorem answers_range {count reach : Nat} (id : MessageId) (channel : Channel) (firstFrame : FrameIndex)
    (wide : 1 ≤ window) (counted : reach < 16 * Transfer.roundLimit) (within : reach ≤ count)
    (short : ∀ k < reach, (m.joined (List.range (k + 1))).length < declared)
    (enough : declared ≤ (m.joined (List.range (reach + 1))).length) :
    Course.answers window (some { transfer := { id, channel, firstFrame, declared } })
        ((List.range (count + 1)).map m.sent) =
      (List.range reach).map (fun k => some (.ok (.buffered (m.openPlace id k)))) ++
        some (.ok (.completed (m.lastPlace id declared (List.range reach) reach)
          ((m.joined (List.range (reach + 1))).take declared) declared)) ::
        List.replicate (count - reach) (some (.ok .orphaned)) := by
  have answers := answers_range_append id channel firstFrame wide counted short enough
    ((List.range' (reach + 1) (count - reach)).map m.sent)
  rw [List.length_map, List.length_range'] at answers
  rw [range_split (Nat.succ_le_succ within), Nat.succ_sub_succ, List.map_append, answers]

/-! ### Out of order -/

theorem exists_closing {numbers : List Nat} (nonempty : numbers ≠ [])
    (enough : declared ≤ (m.joined numbers).length) :
    ∃ before k after, numbers = before ++ k :: after ∧
      (before = [] ∨ (m.joined before).length < declared) ∧
      declared ≤ (m.joined (before ++ [k])).length := by
  induction numbers using List.reverseRecOn with
  | nil => exact absurd rfl nonempty
  | append_singleton numbers k ih =>
    by_cases short : numbers = [] ∨ (m.joined numbers).length < declared
    · exact ⟨numbers, k, [], rfl, short, enough⟩
    · rw [not_or, Nat.not_lt] at short
      obtain ⟨before, j, after, rfl, open_, closes⟩ := ih short.1 short.2
      exact ⟨before, j, after ++ [k], by simp, open_, closes⟩

/-- When the first chunk comes first and the others in this order, each is where it belongs. -/
theorem arrives_cons {order : List Nat} (perm : order.Perm (List.range' 1 n))
    (counted : n < 16 * Transfer.roundLimit)
    (turn : order.Pairwise fun j k => j % 16 = k % 16 → j < k)
    (near : ∀ i (bound : i < order.length), order[i] ≤ (order.take i).foldl max 0 + window) :
    Arrives window n (0 :: order) where
  perm := by
    rw [List.range_eq_range', List.range'_succ]
    exact perm.cons 0
  counted := counted
  turn := by
    refine List.pairwise_cons.mpr ⟨fun k member _ => ?_, turn⟩
    exact (List.mem_range'_1.mp (perm.mem_iff.mp member)).1
  near i bound := by
    cases i with
    | zero => exact Nat.zero_le _
    | succ i => exact near i (Nat.lt_of_succ_lt_succ bound)

def padding (m : Chunks) (declared n : Nat) : Nat := (m.joined (List.range (n + 1))).length - declared

/-- Cutting as many bytes off chunk `k` as there are beyond the declared length leaves something of it,
and gives the same bytes as cutting them off the end of the message. -/
def CutsAlike (m : Chunks) (declared n k : Nat) : Prop :=
  m.padding declared n < (m.bytes k).length ∧
    m.joined (List.range' (k + 1) (n - k)) <+:
      (m.bytes k).drop ((m.bytes k).length - m.padding declared n) ++
        m.joined (List.range' (k + 1) (n - k))

theorem cutsAlike_exact {k : Nat} (exact_ : (m.joined (List.range (n + 1))).length = declared)
    (nonempty : m.bytes k ≠ []) : m.CutsAlike declared n k := by
  have none_ : m.padding declared n = 0 := by rw [padding, exact_, Nat.sub_self]
  refine ⟨?_, ?_⟩
  · rw [none_]
    exact List.length_pos_iff.mpr nonempty
  · rw [none_, Nat.sub_zero, List.drop_length]
    exact List.prefix_refl _

theorem append_take_eq_iff (x b y : Bytes) {kept : Nat} (le : kept ≤ b.length) :
    x ++ b.take kept ++ y = (x ++ b ++ y).take (x.length + kept + y.length) ↔
      y <+: b.drop kept ++ y := by
  have left : (x ++ b.take kept).length = x.length + kept := by
    rw [List.length_append, List.length_take_of_le le]
  have whole : x ++ b ++ y = x ++ b.take kept ++ (b.drop kept ++ y) := by
    simp only [List.append_assoc, ← List.append_assoc (b.take kept), List.take_append_drop]
  rw [whole, ← left, List.take_length_add_append, List.append_cancel_left_eq,
    List.prefix_iff_eq_take]

theorem joined_cut_eq_iff {k : Nat} (le : k ≤ n)
    (enough : declared ≤ (m.joined (List.range (n + 1))).length)
    (spared : m.padding declared n < (m.bytes k).length) :
    m.joined (List.range k) ++ (m.bytes k).take ((m.bytes k).length - m.padding declared n) ++
        m.joined (List.range' (k + 1) (n - k)) = (m.joined (List.range (n + 1))).take declared ↔
      m.CutsAlike declared n k := by
  have around := joined_around (m := m) le
  have total := congrArg List.length around
  simp only [List.length_append] at total
  have size : (m.joined (List.range k)).length + ((m.bytes k).length - m.padding declared n) +
      (m.joined (List.range' (k + 1) (n - k))).length = declared := by
    unfold padding at spared ⊢
    omega
  have same := append_take_eq_iff (m.joined (List.range k)) (m.bytes k)
    (m.joined (List.range' (k + 1) (n - k))) (Nat.sub_le (m.bytes k).length (m.padding declared n))
  rw [size, ← around] at same
  rw [same, CutsAlike, and_iff_right spared]

def handed : Option (Except Fault Outcome) → Option Bytes
  | some (.ok (.completed _ payload _)) => some payload
  | _ => none

theorem map_handed (before : List Nat) (id : MessageId) (answer : Option (Except Fault Outcome))
    (count : Nat) :
    (before.map (fun j => some (Except.ok (Outcome.buffered (m.openPlace id j)))) ++
        answer :: List.replicate count (some (.ok .orphaned))).map handed =
      List.replicate before.length none ++ handed answer :: List.replicate count none := by
  simp [handed, Function.comp_def]

section

variable {init : List Nat} {last : Nat} (arrives : Arrives window n (0 :: (init ++ [last])))
  (id : MessageId) (channel : Channel) (firstFrame : FrameIndex)

include arrives

theorem last_le : last ≤ n :=
  Nat.le_of_lt_succ (List.mem_range.mp (arrives.perm.mem_iff.mp (by simp)))

theorem length_init : (0 :: init).length = n := by
  simpa using arrives.perm.length_eq

theorem length_joined_init :
    (m.joined (0 :: init)).length + (m.bytes last).length = (m.joined (List.range (n + 1))).length := by
  have total := length_joined_perm (m := m) arrives.perm
  rw [← List.cons_append, joined_concat] at total
  exact total

/-- The frame that comes last is told that there is no message, if the others have closed it. -/
theorem handed_early (closed : declared ≤ (m.joined (0 :: init)).length) (payload : Bytes) :
    (Course.answers window (some { transfer := { id, channel, firstFrame, declared } })
        ((0 :: (init ++ [last])).map m.sent)).map handed ≠ List.replicate n none ++ [some payload] := by
  obtain ⟨before, k, after, split, open_, closes⟩ := exists_closing (List.cons_ne_nil _ _) closed
  have fits : ∀ a j b, before ++ [k] = a ++ j :: b → Fits window a j := by
    intro a j b part
    have longer : 0 :: (init ++ [last]) = a ++ j :: (b ++ after ++ [last]) := by
      rw [← List.cons_append, split, List.append_cons before, part]
      simp
    exact arrives.fits longer
  rw [← List.cons_append, split, List.append_assoc, List.cons_append,
    answers_new id channel firstFrame fits open_ closes, map_handed]
  intro same
  rw [List.length_append, List.length_singleton, List.replicate_succ', ← List.cons_append,
    ← List.append_assoc] at same
  have ends := (List.append_inj' same rfl).2
  exact absurd ends (by simp)

/-- Otherwise it closes the message, and is the one that is cut. -/
theorem handed_last (open_ : (m.joined (0 :: init)).length < declared)
    (enough : declared ≤ (m.joined (List.range (n + 1))).length) :
    (Course.answers window (some { transfer := { id, channel, firstFrame, declared } })
        ((0 :: (init ++ [last])).map m.sent)).map handed =
      List.replicate n none ++
        [some (m.joined (List.range last) ++
          (m.bytes last).take ((m.bytes last).length - m.padding declared n) ++
          m.joined (List.range' (last + 1) (n - last)))] := by
  have total := length_joined_init (m := m) arrives
  have fits : ∀ a j b, 0 :: init ++ [last] = a ++ j :: b → Fits window a j := by
    intro a j b part
    exact arrives.fits part
  have kept : declared - (m.joined (0 :: init)).length =
      (m.bytes last).length - m.padding declared n := by
    unfold padding
    omega
  have whole : declared ≤ (m.joined (0 :: init ++ [last])).length := by
    rw [joined_concat]
    omega
  rw [← List.cons_append, answers_new id channel firstFrame fits (.inr open_) whole, map_handed,
    closing_eq arrives.perm, joined_cut (last_le arrives), kept, length_init arrives, List.length_nil,
    List.replicate_zero]
  rfl

theorem handed_last_iff (enough : declared ≤ (m.joined (List.range (n + 1))).length) :
    (Course.answers window (some { transfer := { id, channel, firstFrame, declared } })
        ((0 :: (init ++ [last])).map m.sent)).map handed =
        List.replicate n none ++ [some ((m.joined (List.range (n + 1))).take declared)] ↔
      m.CutsAlike declared n last := by
  have total := length_joined_init (m := m) arrives
  by_cases closed : declared ≤ (m.joined (0 :: init)).length
  · refine iff_of_false (handed_early arrives id channel firstFrame closed _) fun alike => ?_
    have spared := alike.1
    unfold padding at spared
    omega
  · have spared : m.padding declared n < (m.bytes last).length := by
      unfold padding
      omega
    rw [handed_last arrives id channel firstFrame (Nat.not_le.mp closed) enough,
      ← joined_cut_eq_iff (last_le arrives) enough spared]
    simp

end

end Chunks

namespace Engine

variable {window declared count reach n last : Nat} {history events : List Event} {channel : Channel}
  {m : Chunks} {init : List Nat}

/-- Chunks that come in order are buffered until they make up the declared length, the message is then
handed over, and the chunks after that are orphans. -/
theorem answersOn_in_order (wide : 1 ≤ (run { window } history).window)
    (first : (run { window } history).FirstPasses events)
    (few : opened { window } 0 (history ++ events) < UInt32.size)
    (own : events.filter (·.isOn channel) = (List.range (count + 1)).map (m.event channel declared))
    (within : reach ≤ count) (counted : reach ≤ 4079)
    (short : ∀ k < reach, (m.joined (List.range (k + 1))).length < declared)
    (enough : declared ≤ (m.joined (List.range (reach + 1))).length) :
    ∃ id, (run { window } history).answersOn channel events =
      (List.range reach).map (fun k => some (.ok (.buffered (m.openPlace id k)))) ++
        some (.ok (.completed (m.lastPlace id declared (List.range reach) reach)
          ((m.joined (List.range (reach + 1))).take declared) declared)) ::
        List.replicate (count - reach) (some (.ok .orphaned)) := by
  rw [List.range_succ_eq_map] at own
  obtain ⟨id, answers⟩ := m.answersOn_chunks first few (by simp) own
  have numbered : reach < 16 * 255 := Nat.lt_succ_of_le counted
  refine ⟨id, ?_⟩
  rw [answers, ← List.range_succ_eq_map]
  exact Chunks.answers_range id channel (m.index 0) wide numbered within short enough

/-- Four bytes in chunks of 0, 3, 2 and 1, with a frame of another channel in between. -/
theorem answersOn_in_order_interleaved :
    let channel : Channel := { medium := .can, id := 7 }
    let m : Chunks := { index := fun k => 2 * k, bytes := fun k => List.replicate (3 * k % 4) 170 }
    let events : List Event :=
      [m.event channel 4 0, m.event channel 4 1, .push 1 { medium := .can, id := 9 } (.first 6) [1],
        m.event channel 4 2, m.event channel 4 3]
    ∃ id, (run { window := 1 } [.setWindow 3]).answersOn channel events =
      [some (.ok (.buffered ⟨id, 0, 0, false, .accepted⟩)),
        some (.ok (.buffered ⟨id, 1, 3, false, .accepted⟩)),
        some (.ok (.completed ⟨id, 2, 1, true, .accepted⟩ [170, 170, 170, 170] 4)),
        some (.ok .orphaned)] := by
  intro channel m events
  obtain ⟨id, answers⟩ := @answersOn_in_order 1 4 3 2 [.setWindow 3] events channel m (by decide)
    ⟨by decide, by decide, by decide⟩ (by decide) (by decide) (by decide) (by decide) (by decide)
    (by decide)
  exact ⟨id, answers⟩

/-- In any order the message is handed over, complete and with the frame that comes last, exactly when
cutting the padding off that frame is as good as cutting it off the end. -/
theorem handed_any_order_iff (first : (run { window } history).FirstPasses events)
    (few : opened { window } 0 (history ++ events) < UInt32.size)
    (own : events.filter (·.isOn channel) = (0 :: (init ++ [last])).map (m.event channel declared))
    (perm : (init ++ [last]).Perm (List.range' 1 n)) (counted : n ≤ 4079)
    (enough : declared ≤ (m.joined (List.range (n + 1))).length)
    (turn : (init ++ [last]).Pairwise fun j k => j % 16 = k % 16 → j < k)
    (near : ∀ i (bound : i < (init ++ [last]).length),
      (init ++ [last])[i] ≤ ((init ++ [last]).take i).foldl max 0 + (run { window } history).window) :
    ((run { window } history).answersOn channel events).map Chunks.handed =
        List.replicate n none ++ [some ((m.joined (List.range (n + 1))).take declared)] ↔
      m.CutsAlike declared n last := by
  have later : 0 ∉ init ++ [last] := fun member => by
    have bounds := List.mem_range'_1.mp (perm.mem_iff.mp member)
    omega
  obtain ⟨id, answers⟩ := m.answersOn_chunks first few later own
  have arrives := Chunks.arrives_cons perm (show n < 16 * 255 by omega) turn near
  rw [answers]
  exact Chunks.handed_last_iff arrives id channel (m.index 0) enough

/-- Two frames of a message without padding change places. -/
theorem handed_when_swapped :
    let channel : Channel := { medium := .can, id := 7 }
    let m : Chunks := { index := id, bytes := fun k => [UInt8.ofNat k, 170] }
    ([2] ++ [1]).Perm (List.range' 1 2) ∧
      ((run { window := 2 } []).answersOn channel ([0, 2, 1].map (m.event channel 6))).map Chunks.handed =
        [none, none, some [0, 170, 1, 170, 2, 170]] := by
  intro channel m
  have perm : ([2] ++ [1]).Perm (List.range' 1 2) := by decide
  have iff := @handed_any_order_iff 2 6 2 1 [] ([0, 2, 1].map (m.event channel 6)) channel m [2]
    ⟨by decide, by decide, by decide⟩ (by decide) (by decide) perm (by decide) (by decide) (by decide)
    (by decide)
  exact ⟨perm, iff.mpr (Chunks.cutsAlike_exact (by decide) (by decide))⟩

/-- The order does matter: padding in the last frame of a message is not cut off if another one comes
after it, and that one loses its bytes instead. -/
theorem not_handed_any_order :
    ¬∀ (window declared n last : Nat) (events : List Event) (channel : Channel) (m : Chunks)
      (init : List Nat), FirstPasses { window } events → opened { window } 0 events < UInt32.size →
      events.filter (·.isOn channel) = (0 :: (init ++ [last])).map (m.event channel declared) →
      (init ++ [last]).Perm (List.range' 1 n) → n ≤ 4079 →
      (m.joined (List.range n)).length < declared →
      declared ≤ (m.joined (List.range (n + 1))).length →
      ((init ++ [last]).Pairwise fun j k => j % 16 = k % 16 → j < k) →
      (∀ i (bound : i < (init ++ [last]).length),
        (init ++ [last])[i] ≤ ((init ++ [last]).take i).foldl max 0 + window) →
      (answersOn { window } channel events).map Chunks.handed =
        List.replicate n none ++ [some ((m.joined (List.range (n + 1))).take declared)] := by
  intro all
  let channel : Channel := { medium := .can, id := 7 }
  let m : Chunks :=
    { index := id, bytes := fun k => if k = 0 then [1, 2] else if k = 1 then [3, 4] else [5, 255] }
  have claim := all 8 5 2 1 ([0, 2, 1].map (m.event channel 5)) channel m [2]
    ⟨by decide, by decide, by decide⟩ (by decide) (by decide) (by decide) (by decide) (by decide)
    (by decide) (by decide) (by decide)
  exact absurd claim (by decide)

end Engine

end IsoTransport
