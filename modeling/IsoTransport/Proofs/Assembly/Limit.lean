import IsoTransport.Proofs.Assembly.Order
import IsoTransport.Proofs.Assembly.WellFormed

/-!
How long a message can be. In order the numbers of 4080 segments can be counted; the next one comes round too
often, and fails the message for good (`segment_limit`).
-/

namespace IsoTransport

namespace Course

/-- What a failed message answers to a frame. -/
def discarding (id : MessageId) (f : Sent) : Except Fault Outcome :=
  .ok (.discarded
    { message := id
      fragment := f.number.toNat
      length := f.payload.length
      last := false
      verdict := .ignored })

theorem answers_failed {c : Course} (phase : c.transfer.phase = .errored) (window : Nat) (frames : List Sent) :
    answers window (some c) frames = frames.map fun f => some (discarding c.transfer.id f) := by
  have live : c.live = some c := by rw [Course.live, if_neg (by rw [phase]; decide)]
  induction frames with
  | nil => rfl
  | cons f frames ih =>
    rw [answers, push, feed_failed window f.index f.number f.payload phase]
    simp only [live, ih, List.map_cons]
    rfl

theorem answers_overflow {c : Course} (opened : c.Open) {f : Sent}
    (worn : Piece.rounds c.taken (f.number.toNat % 16) = Transfer.roundLimit) (window : Nat)
    (frames : List Sent) :
    answers window (some c) (f :: frames) =
      some (.error (.fragmentOverflow c.transfer.id f.number)) ::
        frames.map fun f => some (discarding c.transfer.id f) := by
  have phase : ({ c with transfer := c.transfer.fail } : Course).transfer.phase = .errored := rfl
  have live : ({ c with transfer := c.transfer.fail } : Course).live =
      some { c with transfer := c.transfer.fail } := rfl
  rw [answers, push, feed_overflow opened worn]
  simp only [live, answers_failed phase]
  rfl

end Course

namespace Chunks

variable {m : Chunks} {declared window limit : Nat}

/-- When 4080 chunks have come in order, every number has come round as often as it can be counted. -/
theorem answers_limit (full : limit = 16 * Transfer.roundLimit) (id : MessageId) (channel : Channel)
    (firstFrame : FrameIndex) (wide : 1 ≤ window) (short : (m.joined (List.range limit)).length < declared)
    (frames : List Course.Sent) :
    Course.answers window (some { transfer := { id, channel, firstFrame, declared } })
        ((List.range limit).map m.sent ++ m.sent limit :: frames) =
      (List.range limit).map (fun k => some (.ok (.buffered (m.openPlace id k)))) ++
        some (.error (.fragmentOverflow id 0)) :: frames.map fun f => some (Course.discarding id f) := by
  have round : limit % 16 = 0 := by omega
  have positive : 0 < limit := by rw [full]; decide
  have arrives := arrives_range (n := limit - 1) wide (by omega)
  rw [Nat.sub_add_cancel positive] at arrives
  obtain ⟨c, reached, answers⟩ := (m.reached_new id channel firstFrame declared).answers_going
    (fun a j b split => arrives.fits split) (.inr short) (m.sent limit :: frames)
  have worn : Piece.rounds c.taken ((m.sent limit).number.toNat % 16) = Transfer.roundLimit := by
    rw [reached.taken, rounds_piece, sent, toNat_number, round, List.nil_append, countP_range_mod (by decide)]
    omega
  rw [answers, Course.answers_overflow reached.opened worn, reached.id_eq, sent, round]
  rfl

end Chunks

namespace Engine

variable {n : Nat} {taken : MessageId → List Piece} {e : Engine} {index : FrameIndex} {channel : Channel}
  {segment : Segment} {payload : Bytes} {id : MessageId}

/-! ### The engine after it -/

/-- The message has failed and nothing is stored of it. The frame that was too much is recorded after 256
rounds of its number. -/
structure Overflowed (e : Engine) (index : FrameIndex) (id : MessageId) (number : UInt8) (length : Nat) :
    Prop where
  placement : e.placement? index = some
    { message := id
      fragment := number.toNat % 16 + 16 * 256
      length
      last := false
      verdict := .overflow }
  failed : ∃ t, e.transfers[id]? = some t ∧ t.phase = .errored
  pending : e.fragments.pending[id]? = none
  rebuilt : e.fragments.rebuilt[id]? = none

theorem Sound.push_overflowed (sound : Sound n taken e) (fresh : e.visited[index]? = none)
    (few : countWith n segment < UInt32.size) {number : UInt8}
    (failed : (e.push index channel segment payload).1 = .error (.fragmentOverflow id number)) :
    (e.push index channel segment payload).2.Overflowed index id number payload.length := by
  rcases target : e.target? index channel segment with ⟨_ | t, s⟩
  · rw [push_orphan fresh target] at failed
    cases failed
  obtain ⟨started, ready⟩ := sound.target few target
  have after := (started.feed ready index segment.number payload).2
  rw [push_target fresh target] at failed ⊢
  obtain ⟨transfers, visited, -⟩ := feed_frame s index t segment.number payload
  have verdict : (t.place s.window segment.number payload.length).1.verdict = .overflow := by
    unfold Engine.feed at failed
    dsimp only at failed
    split at failed <;> first | assumption | cases failed
  have placed := Course.place_of_overflow verdict
  rw [placed] at transfers visited
  have answer : (s.feed index t segment.number payload).1 = .error (.fragmentOverflow t.id segment.number) := by
    rw [Engine.feed, placed]
    rfl
  obtain ⟨rfl, rfl⟩ := Fault.fragmentOverflow.inj (Except.error.inj (answer.symm.trans failed))
  have found : (s.feed index t segment.number payload).2.transfers[t.id]? = some t.fail := by
    rw [transfers, Std.TreeMap.getElem?_insert_self]
  obtain ⟨pending, rebuilt⟩ := after.failed found rfl
  refine ⟨?_, ⟨_, found, rfl⟩, pending, rebuilt⟩
  rw [placement?_eq, visited, Std.TreeMap.getElem?_insert_self]
  rfl

theorem Sound.run_overflowed {events : List Event} (sound : Sound n taken e) {number : UInt8} {length : Nat}
    (gone : e.Overflowed index id number length) (keeps : .reset ∉ events)
    (few : e.opened n events < UInt32.size) : (e.run events).Overflowed index id number length := by
  obtain ⟨placement, ⟨t, found, phase⟩, pending, rebuilt⟩ := gone
  have same := (sound.run_grows keeps few).frozen found (by rw [phase]; decide)
  exact ⟨placement?_eq.mpr (run_visited (placement?_eq.mp placement) keeps),
    ⟨t, (congrArg Entry.transfer same).trans found, phase⟩,
    (congrArg Entry.pending same).trans pending, (congrArg Entry.rebuilt same).trans rebuilt⟩

theorem Sound.run_overflow {before after : List Event} {number : UInt8} (sound : Sound n taken e)
    (first : e.FirstPasses (before ++ .push index channel segment payload :: after))
    (few : e.opened n (before ++ .push index channel segment payload :: after) < UInt32.size)
    (failed : ((e.run before).push index channel segment payload).1 = .error (.fragmentOverflow id number)) :
    (e.run (before ++ .push index channel segment payload :: after)).Overflowed index id number
      payload.length := by
  have rest := first.run
  have earlier : .reset ∉ before := fun member => first.ne_reset (List.mem_append_left _ member)
  rw [opened_append] at few
  obtain ⟨taken', sound'⟩ := sound.run earlier (Nat.lt_of_le_of_lt (le_opened _ _ rest.ne_reset) few)
  obtain ⟨taken'', n'', sound'', after', few', -⟩ := sound'.firstPass rest few
  have later : .reset ∉ after := after'.ne_reset
  rw [Engine.opened, countAfter_push rest.head] at few
  have gone := sound'.push_overflowed rest.head (Nat.lt_of_le_of_lt (le_opened _ _ later) few) failed
  rw [run_append]
  exact sound''.run_overflowed gone later few'

/-! ### Messages in order -/

variable {window declared last limit : Nat} {history events : List Event} {m : Chunks}
  {later : List Course.Sent}

theorem answersOn_limit (full : limit = 16 * Transfer.roundLimit)
    (wide : 1 ≤ (run { window } history).window) (first : (run { window } history).FirstPasses events)
    (few : opened { window } 0 (history ++ events) < UInt32.size)
    (own : events.filter (·.isOn channel) = (List.range (last + 1)).map (m.event channel declared) ++
      later.map fun f => .push f.index channel (.consecutive f.number) f.payload)
    (exceeds : limit ≤ last) (short : (m.joined (List.range limit)).length < declared) :
    ∃ id, (run { window } history).answersOn channel events =
        (List.range limit).map (fun k => some (.ok (.buffered (m.openPlace id k)))) ++
          some (.error (.fragmentOverflow id 0)) ::
            ((List.range' (limit + 1) (last - limit)).map m.sent ++ later).map
              (fun f => some (Course.discarding id f)) ∧
      (run { window } (history ++ events)).Overflowed (m.index limit) id 0 (m.bytes limit).length := by
  have here : (m.event channel declared limit).isOn channel = true := by simp [Chunks.event, Event.isOn]
  have place : (events.filter (·.isOn channel))[limit]? = some (m.event channel declared limit) := by
    rw [own, List.getElem?_append_left (by simpa using Nat.lt_succ_of_le exceeds), List.getElem?_map,
      List.getElem?_range (Nat.lt_succ_of_le exceeds)]
    rfl
  rw [List.range_succ_eq_map] at own
  obtain ⟨id, answers⟩ := m.answersOn_chunks_append first few (by simp) own
  rw [← List.range_succ_eq_map, Chunks.range_around exceeds, List.map_append, List.map_cons, List.append_assoc,
    List.cons_append, Chunks.answers_limit full id channel (m.index 0) wide short] at answers
  refine ⟨id, answers, ?_⟩
  -- the push that overflows is found among the others by its place
  have member : m.event channel declared limit ∈ events :=
    (List.mem_filter.mp (List.mem_of_getElem? place)).1
  obtain ⟨before, after, split⟩ := List.append_of_mem member
  have answer := @answersOn_at (run { window } history) channel before after _ here
  rw [← split, answers, first.place_eq split here place,
    List.getElem?_append_right (by rw [List.length_map, List.length_range]), List.length_map,
    List.length_range, Nat.sub_self, List.getElem?_cons_zero, Option.some.injEq] at answer
  have positive : limit ≠ 0 := by rw [full]; decide
  rw [Chunks.event, if_neg positive] at split answer
  rw [opened_append] at few
  obtain ⟨taken, sound⟩ := sound_run window (Nat.lt_of_le_of_lt (le_opened _ _ first.ne_reset) few)
  rw [run_append]
  subst split
  exact sound.run_overflow first few (Option.some.inj answer).symm

/-! ### Segments of one byte -/

def bytewise : Chunks := { index := fun k => k, bytes := fun _ => [170] }

theorem length_bytewise (numbers : List Nat) : (bytewise.joined numbers).length = numbers.length := by
  simp [Chunks.joined, bytewise]

/-- The first `count` segments of a message that declares `declared` bytes, each of one byte. -/
def bytewiseEvents (channel : Channel) (declared count : Nat) : List Event :=
  (List.range count).map (bytewise.event channel declared)

theorem firstPasses_bytewise (window : Nat) (channel : Channel) (declared count : Nat) :
    (run { window } []).FirstPasses (bytewiseEvents channel declared count) where
  pushes event member := by
    obtain ⟨k, -, rfl⟩ := List.mem_map.mp member
    rfl
  distinct := by
    have indices : (bytewiseEvents channel declared count).filterMap Event.index? = List.range count := by
      rw [bytewiseEvents, List.filterMap_map]
      exact List.filterMap_some
    rw [indices]
    exact List.nodup_range
  fresh _ _ := rfl

theorem opened_bytewise (window : Nat) (channel : Channel) (declared : Nat) {count : Nat}
    (few : count < UInt32.size) :
    opened { window } 0 ([] ++ bytewiseEvents channel declared count) < UInt32.size := by
  have bound := opened_le_firstFrames { window } 0 (bytewiseEvents channel declared count)
  have frames : firstFrames (bytewiseEvents channel declared count) ≤ count :=
    Nat.le_trans List.countP_le_length (by simp [bytewiseEvents])
  rw [List.nil_append]
  omega

theorem own_bytewise (channel : Channel) (declared count : Nat) :
    (bytewiseEvents channel declared count).filter (·.isOn channel) =
      (List.range count).map (bytewise.event channel declared) ++ ([] : List Course.Sent).map
        fun f => .push f.index channel (.consecutive f.number) f.payload := by
  rw [List.map_nil, List.append_nil, List.filter_eq_self.mpr, bytewiseEvents]
  intro event member
  obtain ⟨k, -, rfl⟩ := List.mem_map.mp member
  simp [Chunks.event, Event.isOn]

/-! ### The limit -/

/-- A message of up to 4080 segments that come in order is handed over with the last of them. If it has more,
the one after those overflows, is recorded in the place 16 * 256, and fails the message; all consecutive frames
after it are discarded. -/
theorem segment_limit (wide : 1 ≤ (run { window } history).window)
    (first : (run { window } history).FirstPasses events)
    (few : opened { window } 0 (history ++ events) < UInt32.size)
    (own : events.filter (·.isOn channel) = (List.range (last + 1)).map (m.event channel declared) ++
      later.map fun f => .push f.index channel (.consecutive f.number) f.payload)
    (short : ∀ k < last, (m.joined (List.range (k + 1))).length < declared)
    (enough : declared ≤ (m.joined (List.range (last + 1))).length) :
    ∃ id,
      (last < 4080 → (run { window } history).answersOn channel events =
        (List.range last).map (fun k => some (.ok (.buffered (m.openPlace id k)))) ++
          some (.ok (.completed (m.lastPlace id declared (List.range last) last)
            ((m.joined (List.range (last + 1))).take declared) declared)) ::
          List.replicate later.length (some (.ok .orphaned))) ∧
      (4080 ≤ last → (run { window } history).answersOn channel events =
          (List.range 4080).map (fun k => some (.ok (.buffered (m.openPlace id k)))) ++
            some (.error (.fragmentOverflow id 0)) ::
              ((List.range' 4081 (last - 4080)).map m.sent ++ later).map
                (fun f => some (Course.discarding id f)) ∧
        (run { window } (history ++ events)).Overflowed (m.index 4080) id 0 (m.bytes 4080).length) := by
  rcases Nat.lt_or_ge last 4080 with fits | exceeds
  · rw [List.range_succ_eq_map] at own
    obtain ⟨id, answers⟩ := m.answersOn_chunks_append first few (by simp) own
    rw [← List.range_succ_eq_map] at answers
    refine ⟨id, fun _ => ?_, fun exceeds => absurd fits (Nat.not_lt.mpr exceeds)⟩
    rw [answers]
    exact Chunks.answers_range_append id channel (m.index 0) wide fits short enough later
  · obtain ⟨id, answers, gone⟩ := answersOn_limit rfl wide first few own exceeds (short 4079 exceeds)
    exact ⟨id, fun fits => absurd fits (Nat.not_lt.mpr exceeds), fun _ => ⟨answers, gone⟩⟩

/-- One byte in each segment: the third of three completes its message, and the last of 4081 overflows. -/
theorem segment_limit_bytewise :
    let channel : Channel := { medium := .can, id := 7 }
    (∃ id, (run { window := 1 } []).answersOn channel (bytewiseEvents channel 3 3) =
      [some (.ok (.buffered ⟨id, 0, 1, false, .accepted⟩)), some (.ok (.buffered ⟨id, 1, 1, false, .accepted⟩)),
        some (.ok (.completed ⟨id, 2, 1, true, .accepted⟩ [170, 170, 170] 3))]) ∧
      ∃ id, some (.error (.fragmentOverflow id 0)) ∈
          (run { window := 1 } []).answersOn channel (bytewiseEvents channel 4081 4081) ∧
        (run { window := 1 } ([] ++ bytewiseEvents channel 4081 4081)).Overflowed 4080 id 0 1 := by
  intro channel
  have wide : 1 ≤ (run { window := 1 } []).window := Nat.le_refl 1
  have short : ∀ last, ∀ k < last, (bytewise.joined (List.range (k + 1))).length < last + 1 := by
    intro last k below
    rw [length_bytewise, List.length_range]
    omega
  have enough : ∀ last, last + 1 ≤ (bytewise.joined (List.range (last + 1))).length := by
    intro last
    rw [length_bytewise, List.length_range]
  obtain ⟨id, completes, -⟩ := segment_limit wide (firstPasses_bytewise 1 channel 3 3)
    (opened_bytewise 1 channel 3 (by decide)) (own_bytewise channel 3 3) (short 2) (enough 2)
  obtain ⟨id', -, exceeds⟩ := segment_limit wide (firstPasses_bytewise 1 channel 4081 4081)
    (opened_bytewise 1 channel 4081 (by decide)) (own_bytewise channel 4081 4081) (short 4080) (enough 4080)
  obtain ⟨answers, gone⟩ := exceeds (Nat.le_refl _)
  refine ⟨⟨id, completes (by decide)⟩, id', ?_, gone⟩
  rw [answers]
  exact List.mem_append_right _ List.mem_cons_self

/-- Not every message of up to 4096 segments comes through, not even if they come in order. -/
theorem not_segment_limit_4096 :
    ¬∀ (window : Nat) (m : Chunks) (channel : Channel) (declared last : Nat), 1 ≤ window → last < 4096 →
      (run { window } []).FirstPasses ((List.range (last + 1)).map (m.event channel declared)) →
      (∀ k < last, (m.joined (List.range (k + 1))).length < declared) →
      declared ≤ (m.joined (List.range (last + 1))).length →
      ∀ answer ∈ (run { window } []).answersOn channel ((List.range (last + 1)).map (m.event channel declared)),
        ∀ id number, answer ≠ some (.error (.fragmentOverflow id number)) := by
  intro all
  let channel : Channel := { medium := .can, id := 7 }
  have wide : 1 ≤ (run { window := 8 } []).window := by decide
  have short : ∀ k < 4095, (bytewise.joined (List.range (k + 1))).length < 4096 := by
    intro k below
    rw [length_bytewise, List.length_range]
    omega
  have enough : 4096 ≤ (bytewise.joined (List.range (4095 + 1))).length := by
    rw [length_bytewise, List.length_range]
  have first := firstPasses_bytewise 8 channel 4096 4096
  obtain ⟨id, answers, -⟩ := answersOn_limit rfl wide first (opened_bytewise 8 channel 4096 (by decide))
    (own_bytewise channel 4096 4096) (by decide) (short 4079 (by decide))
  refine all 8 bytewise channel 4096 4095 (by decide) (by decide) first short enough _ ?_ id 0 rfl
  rw [show (List.range (4095 + 1)).map (bytewise.event channel 4096) = bytewiseEvents channel 4096 4096 from rfl,
    answers]
  exact List.mem_append_right _ List.mem_cons_self

end Engine

end IsoTransport
