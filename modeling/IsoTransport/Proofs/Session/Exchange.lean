import IsoTransport.Proofs.Assembly.Order
import IsoTransport.Proofs.Assembly.Owner
import IsoTransport.Proofs.Control.Forms
import IsoTransport.Proofs.Session.Handing

/-!
From a sender to the decoders. A payload that is cut into chunks and sent in frames of one channel comes out
as one message, whatever else the session is given in between (`exchange`).
-/

namespace IsoTransport

/-- The frame has its addresses, the control information in this form, a chunk, and padding behind it. -/
structure Carries (settings : Settings) (frame : Frame) (header : Header) (chunk padding : Bytes) : Prop where
  selected : settings.selects frame = true
  canonical : header.Canonical frame.reportedLen
  written : ∃ addresses : Bytes, addresses.length = (frame.locate settings).length ∧
    frame.data = addresses ++ header.bytes ++ (chunk ++ padding)
  within : ∀ limit, settings.segmentLimit frame.medium = some limit →
    header.bytes.length + chunk.length ≤ limit

theorem Header.segmented_of_segment? {header : Header} {segment : Segment}
    (brings : header.control.segment? = some segment) : header.kind.isSegmented = true := by
  cases header with
  | single | longSingle | singleExt | flowControl | acknowledgment => cases brings
  | first | longFirst | firstExt | consecutive | consecutive2 => rfl

/-- The engine gets the chunk, and of the padding what the limit leaves. -/
theorem Carries.segment? {settings : Settings} {frame : Frame} {header : Header} {chunk padding : Bytes}
    {segment : Segment} (carries : Carries settings frame header chunk padding)
    (brings : header.control.segment? = some segment) :
    ∃ rest, rest <+: padding ∧ settings.segment? frame = some (segment, chunk ++ rest) := by
  obtain ⟨selected, canonical, ⟨addresses, length, written⟩, within⟩ := carries
  have read := Frame.readControl_segment canonical (Header.segmented_of_segment? brings) written
    (settings.segmentLimit frame.medium)
  -- the limit counts from the end of the addresses, so it leaves the chunk whole
  have room : chunk.length ≤ segmentLength frame.data addresses.length
      (addresses.length + header.bytes.length) (settings.segmentLimit frame.medium) := by
    have size : frame.data.length =
        addresses.length + header.bytes.length + (chunk.length + padding.length) := by
      rw [written, List.length_append, List.length_append, List.length_append]
    unfold segmentLength
    cases limit : settings.segmentLimit frame.medium with
    | none =>
      dsimp only
      omega
    | some n =>
      have enough := within n limit
      dsimp only
      omega
  generalize segmentLength frame.data addresses.length (addresses.length + header.bytes.length)
    (settings.segmentLimit frame.medium) = kept at read room
  refine ⟨padding.take (kept - chunk.length), List.take_prefix _ _, ?_⟩
  refine Settings.segment?_eq_some.mpr ⟨selected, _, by rw [Settings.reading, ← length]; exact read, brings, ?_⟩
  have behind : frame.data.drop (addresses.length + header.bytes.length) = chunk ++ padding := by
    rw [written, ← List.length_append, List.drop_left]
  rw [ControlReading.payload, behind, List.take_append, List.take_of_length_le room]

/-- A payload goes out on a channel in a first frame and `n` consecutive ones, of which only the last has
padding. -/
structure Sends (settings : Settings) (channel : Channel) (payload : Bytes) (n : Nat) (chunk : Nat → Bytes)
    (frame : Nat → Frame) : Prop where
  split : (List.range (n + 1)).flatMap chunk = payload
  counted : n ≤ 4079
  last : 0 < n → chunk n ≠ []
  on : ∀ k ≤ n, (frame k).channel = channel
  carries : ∀ k ≤ n, ∃ header padding, Carries settings (frame k) header (chunk k) padding ∧
    header.control =
      (if k = 0 then .first payload.length else .consecutive (UInt8.ofNat (k % 16))) ∧
    (k < n → padding = [])

namespace Sends

variable {settings : Settings} {channel : Channel} {payload : Bytes} {n : Nat} {chunk : Nat → Bytes}
  {frame : Nat → Frame}

/-- The chunks as the engine gets them. -/
def chunks (settings : Settings) (index : Nat → FrameIndex) (frame : Nat → Frame) : Chunks where
  index
  bytes k := ((settings.segment? (frame k)).map (·.2)).getD []

theorem bytes_eq (sends : Sends settings channel payload n chunk frame) (index : Nat → FrameIndex)
    {k : Nat} (le : k ≤ n) :
    (∃ rest, (chunks settings index frame).bytes k = chunk k ++ rest ∧ (k < n → rest = [])) ∧
      settings.segment? (frame k) =
        some (if k = 0 then .first payload.length else .consecutive (UInt8.ofNat (k % 16)),
          (chunks settings index frame).bytes k) := by
  obtain ⟨header, padding, carries, control, only⟩ := sends.carries k le
  have brings : header.control.segment? =
      some (if k = 0 then .first payload.length else .consecutive (UInt8.ofNat (k % 16))) := by
    rw [control]
    split <;> rfl
  obtain ⟨rest, within, segment⟩ := carries.segment? brings
  have bytes : (chunks settings index frame).bytes k = chunk k ++ rest := by
    simp only [chunks, segment, Option.map_some, Option.getD_some]
  refine ⟨⟨rest, bytes, fun below => ?_⟩, by rw [bytes, segment]⟩
  rw [only below] at within
  exact List.prefix_nil.mp within

theorem push?_eq (sends : Sends settings channel payload n chunk frame) (index : Nat → FrameIndex)
    {k : Nat} (le : k ≤ n) :
    settings.push? (index k) (frame k) =
      some ((chunks settings index frame).event channel payload.length k) := by
  rw [Settings.push?, (sends.bytes_eq index le).2, sends.on k le]
  rfl

theorem joined_init (sends : Sends settings channel payload n chunk frame) (index : Nat → FrameIndex)
    {j : Nat} (le : j ≤ n) :
    (chunks settings index frame).joined (List.range j) = (List.range j).flatMap chunk := by
  refine List.flatMap_congr fun k member => ?_
  have below := Nat.lt_of_lt_of_le (List.mem_range.mp member) le
  obtain ⟨⟨rest, bytes, only⟩, -⟩ := sends.bytes_eq index (Nat.le_of_lt below)
  rw [bytes, only below, List.append_nil]

theorem joined_all (sends : Sends settings channel payload n chunk frame) (index : Nat → FrameIndex) :
    ∃ rest, (chunks settings index frame).joined (List.range (n + 1)) = payload ++ rest := by
  obtain ⟨⟨rest, bytes, -⟩, -⟩ := sends.bytes_eq index (Nat.le_refl n)
  have whole := sends.split
  rw [List.range_succ, List.flatMap_append, List.flatMap_singleton] at whole
  refine ⟨rest, ?_⟩
  rw [List.range_succ, Chunks.joined_append, sends.joined_init index (Nat.le_refl n), ← whole,
    List.append_assoc, ← bytes]
  simp [Chunks.joined]

theorem joined_short (sends : Sends settings channel payload n chunk frame) (index : Nat → FrameIndex)
    {k : Nat} (below : k < n) :
    ((chunks settings index frame).joined (List.range (k + 1))).length < payload.length := by
  have something := List.length_pos_iff.mpr (sends.last (Nat.zero_lt_of_lt below))
  rw [sends.joined_init index below, ← sends.split, @List.range_succ n, List.flatMap_append,
    Chunks.range_split below, List.flatMap_append, List.flatMap_singleton]
  simp only [List.length_append]
  omega

end Sends

namespace Session

variable {σ : Type} {s : Session σ} {channel : Channel} {payload : Bytes} {n : Nat} {chunk : Nat → Bytes}
  {index : Nat → FrameIndex} {frame : Nat → Frame} {feed before after : List (FrameIndex × Frame)}

/-- The frames of a payload come in their order, at places that are new; among them there may be any frames
but first and consecutive ones of the same channel. -/
structure Transmits (s : Session σ) (channel : Channel) (payload : Bytes) (n : Nat) (chunk : Nat → Bytes)
    (index : Nat → FrameIndex) (frame : Nat → Frame) (feed : List (FrameIndex × Frame)) : Prop where
  wide : 1 ≤ s.settings.window
  sends : Sends s.settings channel payload n chunk frame
  own : feed.filter (fun x => x.2.channel = channel ∧ (s.settings.segment? x.2).isSome) =
    (List.range (n + 1)).map fun k => (index k, frame k)
  distinct : (feed.map Prod.fst).Nodup
  fresh : ∀ x ∈ feed, s.engine.isVisited x.1 = false

theorem Transmits.firstPasses (transmits : Transmits s channel payload n chunk index frame feed) :
    s.engine.FirstPasses (s.settings.pushes feed) where
  pushes event member := by
    obtain ⟨x, -, given⟩ := List.mem_filterMap.mp member
    obtain ⟨y, -, rfl⟩ := Option.map_eq_some_iff.mp given
    rfl
  distinct := transmits.distinct.sublist (index?_pushes _ _)
  fresh i member := by
    obtain ⟨x, visited, rfl⟩ := List.mem_map.mp ((index?_pushes _ _).subset member)
    exact transmits.fresh x visited

theorem Transmits.own_pushes (transmits : Transmits s channel payload n chunk index frame feed) :
    (s.settings.pushes feed).filter (·.isOn channel) =
      (List.range (n + 1)).map ((Sends.chunks s.settings index frame).event channel payload.length) := by
  rw [pushes_isOn, transmits.own, Settings.pushes, List.filterMap_map, ← List.filterMap_eq_map]
  refine List.filterMap_congr fun k member => ?_
  exact transmits.sends.push?_eq index (Nat.le_of_lt_succ (List.mem_range.mp member))

/-- What the engine answers to the frame of chunk `k`. -/
def sentOutcome (payload : Bytes) (n : Nat) (chunk : Nat → Bytes) (id : MessageId) (k : Nat) : Outcome :=
  if k = n then .completed ⟨id, n, (chunk n).length, true, .accepted⟩ payload payload.length
  else .buffered ⟨id, k, (chunk k).length, false, .accepted⟩

theorem Transmits.answers {settings : Settings} {router : Router σ} {history : List Event}
    (reached : (start settings router).run history = s)
    (transmits : Transmits s channel payload n chunk index frame feed)
    (few : Engine.opened { window := settings.window.toNat } 0
      (traffic settings (history ++ feed.map Event.ofFrame)) < UInt32.size) :
    ∃ id, s.engine.answersOn channel (s.settings.pushes feed) =
      (List.range (n + 1)).map fun k => some (.ok (sentOutcome payload n chunk id k)) := by
  have sends := transmits.sends
  have first := transmits.firstPasses
  have own := transmits.own_pushes
  have window : s.engine.window = s.settings.window.toNat := by
    rw [← reached]
    exact run_window rfl history
  have wide : 1 ≤ s.engine.window := by
    rw [window]
    exact UInt16.le_iff_toNat_le.mp transmits.wide
  have split : traffic settings (history ++ feed.map Event.ofFrame) =
      traffic settings history ++ s.settings.pushes feed := by
    rw [← traffic_frames, ← reached]
    exact traffic_append (start settings router) history _
  have engine : s.engine = Engine.run { window := settings.window.toNat } (traffic settings history) := by
    rw [← reached]
    exact start_run_engine settings router history
  rw [split] at few
  rw [engine] at first wide ⊢
  rw [List.range_succ_eq_map] at own
  obtain ⟨id, answers⟩ := Chunks.answersOn_chunks first few (by simp) own
  obtain ⟨rest, whole⟩ := sends.joined_all index
  have counted : n < 16 * Transfer.roundLimit := Nat.lt_succ_of_le sends.counted
  refine ⟨id, ?_⟩
  rw [answers, ← List.range_succ_eq_map,
    Chunks.answers_range id channel _ wide counted (Nat.le_refl n)
      (fun k below => sends.joined_short index below) (by rw [whole, List.length_append]; omega),
    whole, List.take_left, Nat.sub_self, List.replicate_zero, List.range_succ, List.map_append]
  congr 1
  · refine List.map_congr_left fun k member => ?_
    have below := List.mem_range.mp member
    obtain ⟨⟨rest', bytes, only⟩, -⟩ := sends.bytes_eq index (Nat.le_of_lt below)
    rw [only below, List.append_nil] at bytes
    rw [sentOutcome, if_neg (Nat.ne_of_lt below), Chunks.openPlace, bytes]
  · have size := congrArg List.length sends.split
    rw [List.range_succ, List.flatMap_append, List.flatMap_singleton, List.length_append] at size
    rw [List.map_singleton, sentOutcome, if_pos rfl, Chunks.lastPlace,
      sends.joined_init index (Nat.le_refl n), ← size, Nat.add_sub_cancel_left, size]

/-- The message that is to come out, told from the last of the frames. -/
def wholeMessage (settings : Settings) (payload : Bytes) (last : Frame) (id : MessageId) : Message where
  payload
  addresses := (last.locate settings).addresses
  medium := last.medium
  id := last.id
  declared := payload.length
  transfer := some id

variable {id : MessageId} {k : Nat} {x : FrameIndex × Frame}

section

variable (transmits : Transmits s channel payload n chunk index frame feed)
  (answers : s.engine.answersOn channel (s.settings.pushes feed) =
    (List.range (n + 1)).map fun k => some (.ok (sentOutcome payload n chunk id k)))

include transmits answers

theorem Transmits.answer_sent (le : k ≤ n) (split : feed = before ++ (index k, frame k) :: after) :
    ((s.engine.run (s.settings.pushes before)).step
      ((Sends.chunks s.settings index frame).event channel payload.length k)).1 =
        some (.ok (sentOutcome payload n chunk id k)) := by
  have first := transmits.firstPasses
  have own := transmits.own_pushes
  have here : s.settings.pushes feed = s.settings.pushes before ++
      (Sends.chunks s.settings index frame).event channel payload.length k :: s.settings.pushes after := by
    rw [split, Settings.pushes_append, Settings.pushes_cons, transmits.sends.push?_eq index le]
    rfl
  have place := Chunks.place_of_split first own here le
  have at_ := @Engine.answersOn_at s.engine channel (s.settings.pushes before) (s.settings.pushes after)
    _ (by simp [Chunks.event, Engine.Event.isOn] :
      ((Sends.chunks s.settings index frame).event channel payload.length k).isOn channel = true)
  rw [← here, answers, place, List.getElem?_map, List.getElem?_range (Nat.lt_succ_of_le le)] at at_
  exact (Option.some.inj at_).symm

theorem Transmits.push_sent (le : k ≤ n) (split : feed = before ++ (index k, frame k) :: after) :
    let t := s.run (before.map Event.ofFrame)
    ∃ segment bytes, t.settings.segment? (frame k) = some (segment, bytes) ∧
      (t.engine.push (index k) (frame k).channel segment bytes).1 =
        .ok (sentOutcome payload n chunk id k) := by
  intro t
  have brings := (transmits.sends.bytes_eq index le).2
  have answer := transmits.answer_sent answers le split
  rw [Chunks.event, Engine.step_push, Option.some.injEq] at answer
  refine ⟨_, _, by rw [run_settings_frames]; exact brings, ?_⟩
  rw [run_engine_frames, transmits.sends.on k le]
  exact answer

theorem Transmits.message?_sent (le : k ≤ n) (split : feed = before ++ (index k, frame k) :: after) :
    (s.run (before.map Event.ofFrame)).message? (index k) (frame k) =
      if k = n then some (wholeMessage s.settings payload (frame n) id) else none := by
  obtain ⟨segment, bytes, brings, answer⟩ := transmits.push_sent answers le split
  rw [message?_segment brings, answer, run_settings_frames, sentOutcome]
  by_cases last : k = n
  · subst last
    rw [if_pos rfl, if_pos rfl]
    rfl
  · rw [if_neg last, if_neg last]

end

/-- A message that comes out of a feed belongs to the channel of the frame that it comes out with. -/
theorem owner_of_message {c : Nat} {taken : MessageId → List Piece} {m : Message}
    (sound : Engine.Sound c taken s.engine) (first : s.engine.FirstPasses (s.settings.pushes feed))
    (few : s.engine.opened c (s.settings.pushes feed) < UInt32.size) (split : feed = before ++ x :: after)
    (completes : (s.run (before.map Event.ofFrame)).message? x.1 x.2 = some m)
    (transfer : m.transfer = some id) :
    (s.settings.segment? x.2).isSome ∧ (s.engine.run (s.settings.pushes feed)).Owns x.2.channel id := by
  have settings := s.run_settings_frames before
  cases brings : s.settings.segment? x.2 with
  | none =>
    rw [← settings] at brings
    rw [(observe_handing _ x.1 x.2).2 brings m completes] at transfer
    cases transfer
  | some given =>
    obtain ⟨segment, bytes⟩ := given
    have here : s.settings.pushes feed = s.settings.pushes before ++
        .push x.1 x.2.channel segment bytes :: s.settings.pushes after := by
      rw [split, Settings.pushes_append, Settings.pushes_cons, Settings.push?, brings]
      rfl
    rw [here] at first few ⊢
    rw [← settings] at brings
    rw [message?_segment brings, run_engine_frames] at completes
    refine ⟨rfl, ?_⟩
    cases answer : ((s.engine.run (s.settings.pushes before)).push x.1 x.2.channel segment bytes).1 with
    | error fault => rw [answer] at completes; cases completes
    | ok outcome =>
      rw [answer] at completes
      cases outcome with
      | completed p whole declared =>
        rw [← Option.some.inj completes, Option.some.injEq] at transfer
        rw [← transfer]
        exact sound.run_owner first few answer
      | orphaned | buffered | incomplete | errored | discarded => cases completes

/-- The message of the payload comes out once, with the last of its frames, and no other message comes out in its
name. -/
theorem Transmits.handed_whole {settings : Settings} {router : Router σ} {history : List Event}
    (reached : (start settings router).run history = s)
    (transmits : Transmits s channel payload n chunk index frame feed)
    (few : Engine.opened { window := settings.window.toNat } 0
      (traffic settings (history ++ feed.map Event.ofFrame)) < UInt32.size)
    (answers : s.engine.answersOn channel (s.settings.pushes feed) =
      (List.range (n + 1)).map fun k => some (.ok (sentOutcome payload n chunk id k))) :
    (s.handed feed).filter (·.transfer = some id) = [wholeMessage s.settings payload (frame n) id] := by
  have first := transmits.firstPasses
  obtain ⟨c, taken, sound, few'⟩ := sound_reached reached (reset_notMem_frames s.settings feed) few
  rw [traffic_frames] at few'
  have member : (index n, frame n) ∈ feed := by
    have all := List.mem_map_of_mem (f := fun k => (index k, frame k)) (@List.self_mem_range_succ n)
    rw [← transmits.own] at all
    exact (List.mem_filter.mp all).1
  have here : ∀ before after, feed = before ++ (index n, frame n) :: after →
      (s.run (before.map Event.ofFrame)).message? (index n) (frame n) =
        some (wholeMessage s.settings payload (frame n) id) := by
    intro before after split
    rw [transmits.message?_sent answers (Nat.le_refl n) split, if_pos rfl]
  refine handed_once transmits.distinct.of_map member here rfl fun before x after m split completes named => ?_
  obtain ⟨before', after', split'⟩ := List.append_of_mem member
  obtain ⟨-, owner'⟩ := owner_of_message sound first few' split' (here before' after' split') rfl
  obtain ⟨given, owner⟩ := owner_of_message sound first few' split completes named
  -- so it comes with a first or consecutive frame of this channel, which is one of those that were sent
  have on := owner.unique owner'
  rw [transmits.sends.on n (Nat.le_refl n)] at on
  have mine : x ∈ (List.range (n + 1)).map fun k => (index k, frame k) := by
    rw [← transmits.own]
    exact List.mem_filter.mpr ⟨by simp [split], by simp [on, given]⟩
  obtain ⟨k, below, rfl⟩ := List.mem_map.mp mine
  have said := transmits.message?_sent answers (Nat.le_of_lt_succ (List.mem_range.mp below)) split
  rw [completes] at said
  by_cases last : k = n
  · rw [last]
  · rw [if_neg last] at said
    cases said

/-- A payload that is sent in frames of one channel is handed to the decoders as one message, with the last of
its frames, and no other message is handed on in its name. -/
theorem exchange {settings : Settings} {router : Router σ} {history : List Event}
    (reached : (start settings router).run history = s)
    (transmits : Transmits s channel payload n chunk index frame feed)
    (few : Engine.opened { window := settings.window.toNat } 0
      (traffic settings (history ++ feed.map Event.ofFrame)) < UInt32.size) :
    ∃ id, (∀ k ≤ n, ∀ before after, feed = before ++ (index k, frame k) :: after →
        let t := s.run (before.map Event.ofFrame)
        let message := if k = n then some (wholeMessage s.settings payload (frame n) id) else none
        ∃ report, (t.observe (index k) (frame k)).1 = .ok (some report) ∧
          report.outcome = some (sentOutcome payload n chunk id k) ∧
          report.destination = message.map (fun m => (t.router.deliver m).1) ∧
          (t.observe (index k) (frame k)).2.router =
            (message.map fun m => (t.router.deliver m).2).getD t.router) ∧
      (s.handed feed).filter (·.transfer = some id) = [wholeMessage s.settings payload (frame n) id] ∧
      (s.run (feed.map Event.ofFrame)).router =
        (s.handed feed).foldl (fun r m => (r.deliver m).2) s.router := by
  obtain ⟨id, answers⟩ := transmits.answers reached few
  refine ⟨id, fun k le before after split => ?_, transmits.handed_whole reached few answers, s.run_router feed⟩
  intro t message
  obtain ⟨segment, bytes, brings, answer⟩ := transmits.push_sent answers le split
  obtain ⟨report, observed, outcome, destination⟩ := observe_report brings answer
  have handing := (t.observe_handing (index k) (frame k)).1
  have completes : t.message? (index k) (frame k) = message := transmits.message?_sent answers le split
  rw [completes] at destination handing
  exact ⟨report, observed, outcome, destination, handing⟩

/-- Six bytes in three FlexRay frames of different cycles, of which the last is padded, among a flow control
frame of the same slot, a first frame of another slot and a single frame. -/
theorem exchange_flexRay :
    let settings : Settings := { flexRaySegmentLimit := 5 }
    let router : Router Unit := { memory := () }
    let chunk (k : Nat) : Bytes := if k = 0 then [1, 2, 3] else if k = 1 then [4, 5] else [6]
    let sent (k : Nat) : Frame := .flexRay 3 (UInt8.ofNat k) 0
      ([0x10, 0x20] ++ (if k = 0 then Header.first 6 else .consecutive k).bytes ++
        (chunk k ++ if k = 2 then [0xff, 0xff] else []))
    let other (slot : UInt16) (data : Bytes) : Frame := .flexRay slot 9 0 ([0x10, 0x20] ++ data)
    let feed := [(7, sent 0), (1, other 3 [0x30, 0, 0]), (5, sent 1), (2, other 4 [0x10, 9, 1]), (3, sent 2),
      (4, other 3 [0x01, 8])]
    let s := (start settings router).run []
    ∃ id, (s.handed feed).filter (·.transfer = some id) =
        [{ payload := [1, 2, 3, 4, 5, 6], addresses := .pair 0x10 0x20, medium := .flexRay,
           id := FlexRay.composeId 3 2 0, declared := 6, transfer := some id }] ∧
      ∃ report, ((s.run ((feed.take 4).map Event.ofFrame)).observe 3 (sent 2)).1 = .ok (some report) ∧
        report.outcome = some (.completed ⟨id, 2, 1, true, .accepted⟩ [1, 2, 3, 4, 5, 6] 6) ∧
        report.isComplete = true := by
  intro settings router chunk sent other feed s
  have limit : settings.segmentLimit .flexRay = some 5 := by decide
  have sends : Sends settings (sent 0).channel [1, 2, 3, 4, 5, 6] 2 chunk sent := by
    refine { split := by decide, counted := by decide, last := by decide, on := by decide, carries := ?_ }
    intro k le
    refine ⟨if k = 0 then Header.first 6 else .consecutive k, if k = 2 then [0xff, 0xff] else [], ?_, ?_⟩
    · obtain rfl | rfl | rfl : k = 0 ∨ k = 1 ∨ k = 2 := by omega
      all_goals
        refine ⟨rfl, by decide, ⟨[0x10, 0x20], by decide, rfl⟩, fun n same => ?_⟩
        rw [show (sent _).medium = .flexRay from rfl, limit] at same
        rw [← Option.some.inj same]
        decide
    · obtain rfl | rfl | rfl : k = 0 ∨ k = 1 ∨ k = 2 := by omega
      all_goals exact ⟨rfl, by decide⟩
  have transmits : Transmits s (sent 0).channel [1, 2, 3, 4, 5, 6] 2 chunk
      (fun k => if k = 0 then 7 else if k = 1 then 5 else 3) sent feed :=
    { wide := by decide, sends, own := by decide +kernel, distinct := by decide,
      fresh := by decide +kernel }
  obtain ⟨id, reports, handed, -⟩ := exchange (rfl : _ = s) transmits (by decide +kernel)
  have addresses : ((sent 2).locate s.settings).addresses = .pair 0x10 0x20 := by decide +kernel
  rw [wholeMessage, addresses] at handed
  obtain ⟨report, observed, outcome, destination, -⟩ :=
    reports 2 (by decide) (feed.take 4) (feed.drop 5) (by decide +kernel)
  refine ⟨id, handed, report, observed, outcome, ?_⟩
  rw [Report.isComplete, destination]
  rfl

end Session

end IsoTransport
