import IsoTransport.Proofs.Assembly.Channels

/-!
The chunks of one message, arriving in some order. As long as each stands for the fragment that it is
(`Fits`), the engine buffers them, and closes the message with the chunk that brings the declared number
of bytes: `Reached.answers_arrival`.
-/

namespace IsoTransport

/-- A message cut into chunks, each with the frame that carries it. -/
structure Chunks where
  index : Nat → FrameIndex
  bytes : Nat → Bytes

namespace Chunks

variable (m : Chunks)

/-- The push of a chunk: the first one in a first frame, the others numbered modulo sixteen. -/
def event (channel : Channel) (declared k : Nat) : Engine.Event :=
  .push (m.index k) channel (if k = 0 then .first declared else .consecutive (UInt8.ofNat (k % 16)))
    (m.bytes k)

def joined (numbers : List Nat) : Bytes := numbers.flatMap m.bytes

def piece (k : Nat) : Piece := ⟨m.index k, k, m.bytes k⟩

def sent (k : Nat) : Course.Sent := ⟨m.index k, UInt8.ofNat (k % 16), m.bytes k⟩

/-- The piece of a chunk that comes after these, cut down to what is still needed. -/
def cut (declared : Nat) (done : List Nat) (k : Nat) : Piece where
  frame := m.index k
  fragment := k
  bytes := (m.bytes k).take (declared - (m.joined done).length)

def openPlace (id : MessageId) (k : Nat) : Placement where
  message := id
  fragment := k
  length := (m.bytes k).length
  last := false
  verdict := .accepted

def lastPlace (id : MessageId) (declared : Nat) (done : List Nat) (k : Nat) : Placement where
  message := id
  fragment := k
  length := declared - (m.joined done).length
  last := true
  verdict := .accepted

def closing (id : MessageId) (declared : Nat) (done : List Nat) (k : Nat) : Outcome :=
  let stored := Piece.closed (done.map m.piece ++ [m.cut declared done k]) (m.cut declared done k)
  if stored.isComplete then .completed (m.lastPlace id declared done k) stored.payload declared
  else .incomplete (m.lastPlace id declared done k)

/-- The chunk with number `k` stands for fragment `k` after these, and it is not too far ahead. -/
structure Fits (window : Nat) (done : List Nat) (k : Nat) : Prop where
  round : done.countP (· % 16 = k % 16) = k / 16
  counted : k / 16 < Transfer.roundLimit
  near : k ≤ done.foldl max 0 + window

/-- The message has taken in the chunks with these numbers and is open. -/
structure Reached (c : Course) (id : MessageId) (declared : Nat) (done : List Nat) : Prop where
  opened : c.Open
  id_eq : c.transfer.id = id
  declared_eq : c.transfer.declared = declared
  taken : c.taken = done.map m.piece

variable {m} {c : Course} {id : MessageId} {declared window k : Nat} {done : List Nat}

theorem rounds_piece (number : Nat) :
    Piece.rounds (done.map m.piece) number = done.countP (· % 16 = number) := by
  rw [Piece.rounds, List.countP_map]
  rfl

theorem highest_piece : Piece.highest (done.map m.piece) = done.foldl max 0 := by
  rw [Piece.highest, List.foldl_map]
  rfl

theorem bytesOf_piece : Piece.bytesOf (done.map m.piece) = m.joined done := by
  rw [Piece.bytesOf, List.flatMap_map]
  rfl

theorem joined_concat (done : List Nat) (k : Nat) :
    (m.joined (done ++ [k])).length = (m.joined done).length + (m.bytes k).length := by
  simp [joined]

theorem toNat_number (k : Nat) : (UInt8.ofNat (k % 16)).toNat % 16 = k % 16 := by
  rw [UInt8.toNat_ofNat']
  omega

theorem Fits.nextFragment_eq (fits : Fits window done k) :
    Transfer.nextFragment (done.map m.piece) (UInt8.ofNat (k % 16)) = k := by
  rw [Transfer.nextFragment, toNat_number, rounds_piece, fits.round]
  omega

theorem Reached.accumulated (reached : m.Reached c id declared done) :
    c.transfer.accumulated = (m.joined done).length := by
  rw [reached.opened.counts.accumulated, reached.taken, bytesOf_piece]

theorem Reached.feed (reached : m.Reached c id declared done) (fits : Fits window done k) :
    let p := c.placement (UInt8.ofNat (k % 16)) (m.bytes k).length
    c.feed window (m.index k) (UInt8.ofNat (k % 16)) (m.bytes k) =
      (.ok (c.accepted p (p.piece (m.index k) (m.bytes k))),
        { transfer := c.advance (UInt8.ofNat (k % 16)) (m.bytes k).length
          taken := c.taken ++ [p.piece (m.index k) (m.bytes k)] }) := by
  refine Course.feed_accepted reached.opened ?_ ?_ _ _
  · rw [reached.taken, rounds_piece, toNat_number, fits.round]
    exact Nat.ne_of_lt fits.counted
  · rw [reached.taken, fits.nextFragment_eq, highest_piece]
    exact fits.near

theorem Reached.placement_eq (reached : m.Reached c id declared done) (fits : Fits window done k) :
    c.placement (UInt8.ofNat (k % 16)) (m.bytes k).length =
      { message := id
        fragment := k
        length := min (m.bytes k).length (declared - (m.joined done).length)
        last := declared ≤ (m.joined (done ++ [k])).length
        verdict := .accepted } := by
  rw [Course.placement, reached.accumulated, reached.taken, fits.nextFragment_eq, reached.id_eq,
    reached.declared_eq, joined_concat]

theorem Reached.goes (reached : m.Reached c id declared done) (fits : Fits window done k)
    (short : (m.joined (done ++ [k])).length < declared) :
    ∃ c', Course.push (some c) window (m.index k) (UInt8.ofNat (k % 16)) (m.bytes k) =
        (.ok (.buffered (m.openPlace id k)), some c') ∧ m.Reached c' id declared (done ++ [k]) := by
  have place := reached.placement_eq fits
  have goes : decide (declared ≤ (m.joined (done ++ [k])).length) = false := by simpa using short
  have whole : min (m.bytes k).length (declared - (m.joined done).length) = (m.bytes k).length := by
    rw [joined_concat] at short
    omega
  rw [goes, whole] at place
  have free : Piece.rounds c.taken ((UInt8.ofNat (k % 16)).toNat % 16) ≠ Transfer.roundLimit := by
    rw [reached.taken, rounds_piece, toNat_number, fits.round]
    exact Nat.ne_of_lt fits.counted
  have next := Course.advance_open reached.opened free (m.index k) (m.bytes k) (by rw [place])
  have piece : (m.openPlace id k).piece (m.index k) (m.bytes k) = m.piece k := by
    simp [Placement.piece, openPlace, Chunks.piece]
  rw [place] at next
  rw [Course.push, reached.feed fits, place]
  refine ⟨_, congrArg (Prod.mk _) next.live, next, reached.id_eq, reached.declared_eq, ?_⟩
  rw [reached.taken, List.map_append]
  exact congrArg (fun x => done.map m.piece ++ [x]) piece

theorem Reached.closes (reached : m.Reached c id declared done) (fits : Fits window done k)
    (enough : declared ≤ (m.joined (done ++ [k])).length) :
    Course.push (some c) window (m.index k) (UInt8.ofNat (k % 16)) (m.bytes k) =
      (.ok (m.closing id declared done k), none) := by
  have place := reached.placement_eq fits
  have closes : decide (declared ≤ (m.joined (done ++ [k])).length) = true := by simpa using enough
  have rest : min (m.bytes k).length (declared - (m.joined done).length) =
      declared - (m.joined done).length := by
    rw [joined_concat] at enough
    omega
  rw [closes, rest] at place
  have last : (c.placement (UInt8.ofNat (k % 16)) (m.bytes k).length).last = true := by rw [place]
  have phase := (Course.advance_full reached.opened last).1
  rw [Course.push, reached.feed fits, place]
  refine Prod.ext ?_ (if_pos phase)
  simp only [Course.accepted, reached.taken, reached.declared_eq, if_true]
  rfl

/-- Chunks that do not make up the declared length leave the message open. -/
theorem Reached.answers_going {before : List Nat} (reached : m.Reached c id declared done)
    (fits : ∀ a j b, before = a ++ j :: b → Fits window (done ++ a) j)
    (short : before = [] ∨ (m.joined (done ++ before)).length < declared) (frames : List Course.Sent) :
    ∃ c', m.Reached c' id declared (done ++ before) ∧
      Course.answers window (some c) (before.map m.sent ++ frames) =
        before.map (fun j => some (.ok (.buffered (m.openPlace id j)))) ++
          Course.answers window (some c') frames := by
  -- along the chunks, which are added to `done`
  induction before generalizing c done with
  | nil => exact ⟨c, by rwa [List.append_nil], rfl⟩
  | cons j before ih =>
    have fit := fits [] j before rfl
    rw [List.append_nil] at fit
    have open_ := short.resolve_left (List.cons_ne_nil _ _)
    have room : (m.joined (done ++ [j])).length < declared := by
      refine Nat.lt_of_le_of_lt ?_ open_
      simp only [joined, List.flatMap_append, List.flatMap_cons, List.flatMap_nil, List.append_nil,
        List.length_append]
      omega
    obtain ⟨c', answer, next⟩ := reached.goes fit room
    have shift : ∀ a, done ++ j :: a = done ++ [j] ++ a := by simp
    rw [shift] at open_ ⊢
    obtain ⟨c'', last, rest⟩ := ih next (fun a i b split => by
      rw [← shift]
      exact fits (j :: a) i b (by rw [split, List.cons_append])) (.inr open_)
    refine ⟨c'', last, ?_⟩
    rw [List.map_cons, List.cons_append, Course.answers]
    simp only [sent] at answer rest ⊢
    rw [answer]
    simp only [rest, List.map_cons, List.cons_append]

/-- The chunks `before` leave the message open, the chunk `k` closes it, and the frames after it are lost. -/
theorem Reached.answers_arrival {before : List Nat} (reached : m.Reached c id declared done)
    (fits : ∀ a j b, before ++ [k] = a ++ j :: b → Fits window (done ++ a) j)
    (short : before = [] ∨ (m.joined (done ++ before)).length < declared)
    (enough : declared ≤ (m.joined (done ++ before ++ [k])).length) (frames : List Course.Sent) :
    Course.answers window (some c) (before.map m.sent ++ m.sent k :: frames) =
      before.map (fun j => some (.ok (.buffered (m.openPlace id j)))) ++
        some (.ok (m.closing id declared (done ++ before) k)) ::
          List.replicate frames.length (some (.ok .orphaned)) := by
  have earlier : ∀ a j b, before = a ++ j :: b → Fits window (done ++ a) j :=
    fun a j b split => fits a j (b ++ [k]) (by rw [split, List.append_assoc, List.cons_append])
  obtain ⟨c', next, answers⟩ := reached.answers_going earlier short (m.sent k :: frames)
  have answer := next.closes (fits before k [] rfl) enough
  rw [answers]
  simp only [Course.answers, sent, answer, Course.answers_none]

theorem reached_new (m : Chunks) (id : MessageId) (channel : Channel) (firstFrame : FrameIndex)
    (declared : Nat) :
    m.Reached { transfer := { id, channel, firstFrame, declared } } id declared [] where
  opened := ⟨rfl, Transfer.counts_new .., .inl rfl⟩
  id_eq := rfl
  declared_eq := rfl
  taken := rfl

theorem answers_new (id : MessageId) (channel : Channel) (firstFrame : FrameIndex)
    {before after : List Nat} (fits : ∀ a j b, before ++ [k] = a ++ j :: b → Fits window a j)
    (short : before = [] ∨ (m.joined before).length < declared)
    (enough : declared ≤ (m.joined (before ++ [k])).length) :
    Course.answers window (some { transfer := { id, channel, firstFrame, declared } })
        ((before ++ k :: after).map m.sent) =
      before.map (fun j => some (.ok (.buffered (m.openPlace id j)))) ++
        some (.ok (m.closing id declared before k)) ::
          List.replicate after.length (some (.ok .orphaned)) := by
  rw [List.map_append, List.map_cons, show after.length = (after.map m.sent).length from (List.length_map _).symm]
  exact (m.reached_new id channel firstFrame declared).answers_arrival fits short enough _

/-! ### Chunks with nothing missing -/

/-- The chunks up to `n` in an order in which each stands for the fragment that it is: those of one
number keep their order, and none is more than `window` ahead of the highest before it. -/
structure Arrives (window n : Nat) (numbers : List Nat) : Prop where
  perm : numbers.Perm (List.range (n + 1))
  counted : n < 16 * Transfer.roundLimit
  turn : numbers.Pairwise fun j k => j % 16 = k % 16 → j < k
  near : ∀ i (bound : i < numbers.length), numbers[i] ≤ (numbers.take i).foldl max 0 + window

theorem countP_range_mod {r : Nat} (small : r < 16) (k : Nat) :
    (List.range k).countP (· % 16 = r) = (k + 15 - r) / 16 := by
  induction k with
  | zero =>
    rw [List.range_zero, List.countP_nil]
    omega
  | succ k ih =>
    rw [List.range_succ, List.countP_append, ih, List.countP_singleton]
    by_cases here : k % 16 = r
    · rw [if_pos (by simpa using here)]
      omega
    · rw [if_neg (by simpa using here)]
      omega

theorem Arrives.round {n : Nat} {numbers before after : List Nat} (arrives : Arrives window n numbers)
    (split : numbers = before ++ k :: after) : before.countP (· % 16 = k % 16) = k / 16 := by
  have distinct := arrives.perm.nodup_iff.mpr List.nodup_range
  have turn := arrives.turn
  have member := fun j => arrives.perm.mem_iff (a := j)
  rw [split] at distinct turn member
  simp only [List.mem_append, List.mem_cons, List.mem_range] at member
  have lower : ∀ j ∈ before, j % 16 = k % 16 → j < k := fun j old =>
    (List.pairwise_append.mp turn).2.2 j old k List.mem_cons_self
  have higher : ∀ j ∈ after, k % 16 = j % 16 → k < j := fun j new =>
    (List.pairwise_cons.mp (List.pairwise_append.mp turn).2.1).1 j new
  -- so those of this number that came before are the ones below `k`, in some order
  have same : (before.filter (· % 16 = k % 16)).Perm ((List.range k).filter (· % 16 = k % 16)) := by
    rw [List.perm_ext_iff_of_nodup ((List.nodup_append.mp distinct).1.filter _)
      (List.nodup_range.filter _)]
    intro j
    simp only [List.mem_filter, List.mem_range, decide_eq_true_eq]
    refine ⟨fun ⟨old, number⟩ => ⟨lower j old number, number⟩, fun ⟨below, number⟩ => ⟨?_, number⟩⟩
    have upTo : k < n + 1 := (member k).mp (.inr (.inl rfl))
    rcases (member j).mpr (Nat.lt_trans below upTo) with old | rfl | new
    · exact old
    · exact absurd below (Nat.lt_irrefl _)
    · exact absurd (higher j new number.symm) (Nat.lt_asymm below)
  rw [List.countP_eq_length_filter, same.length_eq, ← List.countP_eq_length_filter,
    countP_range_mod (Nat.mod_lt _ (by decide))]
  omega

theorem Arrives.fits {n : Nat} {numbers before after : List Nat} (arrives : Arrives window n numbers)
    (split : numbers = before ++ k :: after) : Fits window before k where
  round := arrives.round split
  counted := by
    have upTo : k ∈ List.range (n + 1) := arrives.perm.mem_iff.mp (by simp [split])
    have counted := arrives.counted
    rw [List.mem_range] at upTo
    omega
  near := by
    subst split
    simpa using arrives.near before.length (by simp)

/-- The chunk that closes a message of which nothing is missing is cut, wherever it stands. -/
theorem closing_eq {n : Nat} {before : List Nat} (perm : (before ++ [k]).Perm (List.range (n + 1))) :
    m.closing id declared before k =
      .completed (m.lastPlace id declared before k)
        ((List.range (n + 1)).flatMap fun j =>
          if j = k then (m.bytes j).take (declared - (m.joined before).length) else m.bytes j)
        declared := by
  have distinct := perm.nodup_iff.mpr List.nodup_range
  let piece := fun j => if j = k then m.cut declared before k else m.piece j
  have number : ∀ j, (piece j).fragment = j := by
    intro j
    by_cases here : j = k <;> simp [piece, here, cut, Chunks.piece]
  have stored : before.map m.piece ++ [m.cut declared before k] = (before ++ [k]).map piece := by
    have others : ∀ j ∈ before, m.piece j = piece j := by
      intro j old
      have apart : j ≠ k := fun same => (List.nodup_append.mp distinct).2.2 j old k (by simp) same
      simp [piece, apart]
    rw [List.map_append, List.map_congr_left others]
    simp [piece]
  have whole : (Piece.closed ((before ++ [k]).map piece) (m.cut declared before k)).isComplete := by
    have upTo : k ∈ List.range (n + 1) := perm.mem_iff.mp (by simp)
    refine Piece.isComplete_closed.mpr fun j below => ⟨piece j, List.mem_map_of_mem ?_, number j⟩
    rw [List.mem_range] at upTo
    exact perm.mem_iff.mpr (List.mem_range.mpr (Nat.lt_of_le_of_lt below upTo))
  have ordered : ((List.range (n + 1)).map piece).Pairwise (·.fragment < ·.fragment) := by
    rw [List.pairwise_map]
    simpa only [number] using List.pairwise_lt_range
  rw [closing, stored, if_pos whole, Piece.closed,
    Piece.payload_gather (perm.symm.map piece) ordered, Piece.bytesOf, List.flatMap_map]
  congr 2
  funext j
  by_cases here : j = k
  · simp [piece, here, cut]
  · simp [piece, here, Chunks.piece]

theorem map_event (channel : Channel) (declared : Nat) {order : List Nat} (later : 0 ∉ order) :
    (0 :: order).map (m.event channel declared) =
      .push (m.index 0) channel (.first declared) (m.bytes 0) ::
        (order.map m.sent).map fun f => .push f.index channel (.consecutive f.number) f.payload := by
  rw [List.map_cons, List.map_map]
  congr 1
  refine List.map_congr_left fun j member => ?_
  have nonzero : j ≠ 0 := fun same => later (same ▸ member)
  simp [event, sent, nonzero]

/-- Chunks that are pushed on a channel, and the consecutive frames after them, are answered as a new message
alone would answer them. -/
theorem answersOn_chunks_append {window : Nat} {history events : List Engine.Event} {channel : Channel}
    {order : List Nat} {frames : List Course.Sent}
    (first : (Engine.run { window } history).FirstPasses events)
    (few : Engine.opened { window } 0 (history ++ events) < UInt32.size) (later : 0 ∉ order)
    (own : events.filter (·.isOn channel) = (0 :: order).map (m.event channel declared) ++
      frames.map fun f => .push f.index channel (.consecutive f.number) f.payload) :
    ∃ id, (Engine.run { window } history).answersOn channel events =
      Course.answers (Engine.run { window } history).window
        (some { transfer := { id, channel, firstFrame := m.index 0, declared } })
        ((0 :: order).map m.sent ++ frames) := by
  rw [Engine.opened_append] at few
  have before := Nat.lt_of_le_of_lt (Engine.le_opened _ _ first.ne_reset) few
  obtain ⟨taken, sound⟩ := Engine.sound_run window before
  rw [map_event channel declared later, List.cons_append, ← List.map_append] at own
  exact sound.answersOn_first first few own

theorem answersOn_chunks {window : Nat} {history events : List Engine.Event} {channel : Channel}
    {order : List Nat} (first : (Engine.run { window } history).FirstPasses events)
    (few : Engine.opened { window } 0 (history ++ events) < UInt32.size) (later : 0 ∉ order)
    (own : events.filter (·.isOn channel) = (0 :: order).map (m.event channel declared)) :
    ∃ id, (Engine.run { window } history).answersOn channel events =
      Course.answers (Engine.run { window } history).window
        (some { transfer := { id, channel, firstFrame := m.index 0, declared } })
        ((0 :: order).map m.sent) := by
  have alone : events.filter (·.isOn channel) = (0 :: order).map (m.event channel declared) ++
      ([] : List Course.Sent).map fun f => .push f.index channel (.consecutive f.number) f.payload := by
    rw [own, List.map_nil, List.append_nil]
  obtain ⟨id, answers⟩ := answersOn_chunks_append first few later alone
  rw [List.append_nil] at answers
  exact ⟨id, answers⟩

theorem place_of_split {channel : Channel} {n : Nat} {e : Engine} {events before after : List Engine.Event}
    (first : e.FirstPasses events)
    (own : events.filter (·.isOn channel) = (List.range (n + 1)).map (m.event channel declared))
    (split : events = before ++ m.event channel declared k :: after) (le : k ≤ n) :
    (before.filter (·.isOn channel)).length = k := by
  refine first.place_eq split (by simp [event, Engine.Event.isOn]) ?_
  rw [own, List.getElem?_map, List.getElem?_range (Nat.lt_succ_of_le le)]
  rfl

end Chunks

end IsoTransport
