import SmtSession.Emitter
import SmtSession.Proofs.Authority

namespace SmtSession.Stream

def encode (cs : List Char) : List UInt8 := cs.flatMap String.utf8EncodeChar

theorem encode_append (front back : List Char) :
    encode (front ++ back) = encode front ++ encode back :=
  List.flatMap_append

theorem length_encode (cs : List Char) : (encode cs).length = byteCount cs := by
  induction cs with
  | nil => rfl
  | cons c rest ih =>
    rw [byteCount, ← ih, encode, List.flatMap_cons, List.length_append,
      String.length_utf8EncodeChar, encode]

theorem byteCount_append (front back : List Char) :
    byteCount (front ++ back) = byteCount front + byteCount back := by
  rw [← length_encode, encode_append, List.length_append, length_encode, length_encode]

/-- What fits is taken from the front, and what comes next has no room any more. -/
theorem fitting_split (room : Nat) (cs : List Char) :
    ∃ taken others left, fitting room cs = (taken, others, left) ∧
      cs = taken ++ others ∧ room = byteCount taken + left ∧
      ∀ next rest, others = next :: rest → left < next.utf8Size := by
  induction cs generalizing room with
  | nil => exact ⟨[], [], room, rfl, rfl, by simp [byteCount], nofun⟩
  | cons c rest ih =>
    by_cases fits : c.utf8Size ≤ room
    · obtain ⟨taken, others, left, found, split, same, tight⟩ := ih (room - c.utf8Size)
      refine ⟨c :: taken, others, left, ?_, by rw [split]; rfl, ?_, tight⟩
      · simp only [fitting, fits, ↓reduceIte, found]
      · rw [byteCount]
        omega
    · refine ⟨[], c :: rest, room, by simp only [fitting, fits, ↓reduceIte], rfl,
        by simp [byteCount], ?_⟩
      rintro next others ⟨⟩
      omega

/-- What is written to a sink with a limit: everything if it fits, else the bytes that there is room
for, and no room is left. -/
theorem write_limited {stream : Stream} {room : Nat} (limited : stream.room = some room)
    (cs : List Char) :
    (byteCount cs ≤ room ∧ stream.write cs = (true, { stream with
      written := stream.written ++ cs, room := some (room - byteCount cs) })) ∨
    ∃ taken left next rest, room < byteCount cs ∧ cs = taken ++ next :: rest ∧
      room = byteCount taken + left ∧ left < next.utf8Size ∧
      stream.write cs = (false, { stream with
        written := stream.written ++ taken
        cut := stream.cut ++ (String.utf8EncodeChar next).take left
        room := some 0 }) := by
  obtain ⟨taken, others, left, found, rfl, same, tight⟩ := fitting_split room cs
  cases others with
  | nil =>
    left
    rw [List.append_nil] at found ⊢
    have rest : room - byteCount taken = left := by omega
    exact ⟨by omega, by simp only [write, limited, found, rest]⟩
  | cons next rest =>
    right
    have short := tight next rest rfl
    refine ⟨taken, left, next, rest, ?_, rfl, same, short, ?_⟩
    · rw [byteCount_append, byteCount]
      omega
    · simp only [write, limited, found]

/-- The stream holds the first bytes of what was written to it, and has room for no more than these
and what is missing of its limit. What fits is held in whole characters. -/
structure Holds (limit : Nat) (offered : List Char) (stream : Stream) : Prop where
  bytes : stream.bytes = (encode offered).take limit
  room : stream.room = some (limit - byteCount offered)
  whole : byteCount offered ≤ limit → stream.written = offered ∧ stream.cut = []

theorem holds_empty (limit : Nat) (fault : String) :
    Holds limit [] { room := some limit, fault } where
  bytes := by simp [Stream.bytes, encode]
  room := rfl
  whole _ := ⟨rfl, rfl⟩

variable {limit : Nat} {offered : List Char} {stream : Stream}

/-- What is written beyond the limit makes no difference. -/
theorem holds_append_iff (full : limit < byteCount offered) (more : List Char) :
    Holds limit (offered ++ more) stream ↔ Holds limit offered stream := by
  have enough : limit ≤ (encode offered).length := by
    rw [length_encode]
    omega
  have bytes : (encode (offered ++ more)).take limit = (encode offered).take limit := by
    rw [encode_append, List.take_append_of_le_length enough]
  have room : limit - byteCount (offered ++ more) = limit - byteCount offered := by
    rw [byteCount_append]
    omega
  have fuller : limit < byteCount (offered ++ more) := by
    rw [byteCount_append]
    omega
  constructor
  · intro holds
    exact ⟨bytes ▸ holds.bytes, room ▸ holds.room, fun fits => absurd fits (Nat.not_le.mpr full)⟩
  · intro holds
    exact ⟨bytes ▸ holds.bytes, room ▸ holds.room, fun fits => absurd fits (Nat.not_le.mpr fuller)⟩

theorem eq_nil_of_byteCount {cs : List Char} (none : byteCount cs = 0) : cs = [] := by
  cases cs with
  | nil => rfl
  | cons c rest =>
    have positive := c.utf8Size_pos
    rw [byteCount] at none
    omega

theorem Holds.write_full (holds : Holds limit offered stream) (full : limit < byteCount offered)
    (cs : List Char) : (stream.write cs).2.bytes = stream.bytes := by
  have none : stream.room = some 0 := by
    rw [holds.room]
    congr 1
    omega
  rcases write_limited none cs with ⟨fits, done⟩ | ⟨taken, left, next, rest, _, _, same, _, done⟩
  · rw [done, eq_nil_of_byteCount (Nat.le_zero.mp fits)]
    simp [Stream.bytes]
  · have nothing : taken = [] := eq_nil_of_byteCount (by omega)
    have cut : left = 0 := by omega
    rw [done, nothing, cut]
    simp [Stream.bytes]

/-- Characters are written whole as long as they fit, and the first that does not is cut at the
limit. -/
theorem Holds.write_within (holds : Holds limit offered stream) (within : byteCount offered ≤ limit)
    (cs : List Char) : (stream.write cs).2.bytes = (encode (offered ++ cs)).take limit := by
  obtain ⟨written, uncut⟩ := holds.whole within
  rcases write_limited holds.room cs with ⟨fits, done⟩ |
    ⟨taken, left, next, rest, full, rfl, same, short, done⟩
  · have enough : (encode (offered ++ cs)).length ≤ limit := by
      rw [length_encode, byteCount_append]
      omega
    rw [done, List.take_of_length_le enough]
    simp [Stream.bytes, written, uncut, encode]
  · have exact : limit = (encode (offered ++ taken)).length + left := by
      rw [length_encode, byteCount_append]
      omega
    have cutShort : left ≤ (String.utf8EncodeChar next).length := by
      rw [String.length_utf8EncodeChar]
      omega
    have split : encode (offered ++ (taken ++ next :: rest)) =
        encode (offered ++ taken) ++ (String.utf8EncodeChar next ++ encode rest) := by
      simp [encode]
    rw [done, split, exact, List.take_length_add_append, List.take_append_of_le_length cutShort]
    simp [Stream.bytes, written, uncut, encode]

/-- Writing more keeps what the stream holds to the first bytes, and succeeds exactly if there is
room. -/
theorem Holds.write (holds : Holds limit offered stream) (cs : List Char) :
    Holds limit (offered ++ cs) (stream.write cs).2 ∧ (stream.write cs).2.fault = stream.fault ∧
      (stream.write cs).1 = decide (byteCount cs ≤ limit - byteCount offered) := by
  -- The bytes first: they do not depend on whether everything is written.
  have bytes : (stream.write cs).2.bytes = (encode (offered ++ cs)).take limit := by
    rcases Nat.lt_or_ge limit (byteCount offered) with full | within
    · rw [holds.write_full full, ((holds_append_iff full cs).mpr holds).bytes]
    · exact holds.write_within within cs
  rcases write_limited holds.room cs with ⟨fits, done⟩ | ⟨_, _, _, _, full, _, _, _, done⟩
  · rw [done] at bytes ⊢
    refine ⟨⟨bytes, ?_, ?_⟩, rfl, (decide_eq_true fits).symm⟩
    · rw [byteCount_append, Nat.sub_add_eq]
    · intro within
      rw [byteCount_append] at within
      obtain ⟨written, uncut⟩ := holds.whole (by omega)
      exact ⟨by rw [written], uncut⟩
  · have more : limit < byteCount (offered ++ cs) := by
      rw [byteCount_append]
      omega
    rw [done] at bytes ⊢
    refine ⟨⟨bytes, ?_, fun within => absurd within (Nat.not_le.mpr more)⟩, rfl,
      (decide_eq_false (Nat.not_le.mpr full)).symm⟩
    rw [Nat.sub_eq_zero_of_le (Nat.le_of_lt more)]

/-- Write pieces one after the other, up to the first that is refused. -/
def writePieces : List (List Char) → Stream → Bool × Stream
  | [], stream => (true, stream)
  | piece :: rest, stream =>
    match stream.write piece with
    | (true, stream) => writePieces rest stream
    | (false, stream) => (false, stream)

theorem fitting_append (room : Nat) (front back : List Char) :
    fitting room (front ++ back) = match fitting room front with
      | (taken, [], left) =>
        let (more, others, left) := fitting left back
        (taken ++ more, others, left)
      | (taken, next :: others, left) => (taken, next :: others ++ back, left) := by
  induction front generalizing room with
  | nil => rfl
  | cons c rest ih =>
    by_cases fits : c.utf8Size ≤ room
    · simp only [List.cons_append, fitting, fits, ↓reduceIte, ih]
      rcases fitting (room - c.utf8Size) rest with ⟨taken, _ | ⟨next, others⟩, left⟩ <;> rfl
    · simp only [List.cons_append, fitting, fits, ↓reduceIte]

theorem write_nil (stream : Stream) : stream.write [] = (true, stream) := by
  rcases stream with ⟨written, cut, _ | room, fault⟩ <;> simp [write, fitting]

theorem write_append (front back : List Char) (stream : Stream) :
    stream.write (front ++ back) = match stream.write front with
      | (true, stream) => stream.write back
      | (false, stream) => (false, stream) := by
  rcases stream with ⟨written, cut, _ | room, fault⟩
  · simp only [write, List.append_assoc]
  · simp only [write, fitting_append]
    rcases fitting room front with ⟨taken, _ | ⟨next, others⟩, left⟩
    · rcases found : fitting left back with ⟨more, _ | ⟨next, others⟩, left⟩ <;>
        simp only [List.append_assoc, found]
    · rfl

theorem writePieces_eq (pieces : List (List Char)) (stream : Stream) :
    stream.writePieces pieces = stream.write pieces.flatten := by
  induction pieces generalizing stream with
  | nil => exact (write_nil stream).symm
  | cons piece rest ih =>
    rw [List.flatten_cons, write_append, writePieces]
    rcases stream.write piece with ⟨done, next⟩
    cases done with
    | true => exact ih next
    | false => rfl

/-- Commands as they are to stand on a stream. -/
def lines (commands : List Command) : List Char := commands.flatMap line

theorem lines_concat (commands : List Command) (command : Command) :
    lines (commands ++ [command]) = lines commands ++ line command := by
  rw [lines, List.flatMap_append, List.flatMap_singleton, lines]

theorem byteCount_line_pos (command : Command) : 0 < byteCount (line command) := by
  rw [line, byteCount_append]
  exact Nat.lt_add_left _ (by decide)

/-- The stream has been sent commands, and has held what there is room for. -/
structure Carries (limit : Nat) (message : String) (commands : List Command) (stream : Stream) :
    Prop extends Holds limit (lines commands) stream where
  fault : stream.fault = message

/-- What comes of the last of the commands sent: it arrives exactly if all of them fit. -/
def arrival (limit : Nat) (message : String) (commands : List Command) : Except SolverError Unit :=
  if byteCount (lines commands) ≤ limit then .ok () else .error (writeError message)

variable {message : String} {earlier : List Command}

theorem Carries.send (carries : Carries limit message earlier stream) (command : Command) :
    Carries limit message (earlier ++ [command]) (Emitter.send command stream).2 ∧
      (Emitter.send command stream).1 =
        (arrival limit message (earlier ++ [command])).map fun _ => [] := by
  obtain ⟨holds, same, complete⟩ := carries.toHolds.write (line command)
  have positive := byteCount_line_pos command
  have total : byteCount (lines (earlier ++ [command])) =
      byteCount (lines earlier) + byteCount (line command) := by
    rw [lines_concat, byteCount_append]
  refine ⟨⟨lines_concat earlier command ▸ holds, same.trans carries.fault⟩, ?_⟩
  simp only [Emitter.send, Stream.send, complete, arrival, carries.fault, total]
  by_cases fits : byteCount (lines earlier) + byteCount (line command) ≤ limit
  · have here : byteCount (line command) ≤ limit - byteCount (lines earlier) := by omega
    simp only [fits, here, decide_true, ↓reduceIte]
  · have here : ¬ byteCount (line command) ≤ limit - byteCount (lines earlier) := by omega
    simp only [fits, here, decide_false, Bool.false_eq_true, ↓reduceIte]

/-- The stream after commands have been sent, whether they arrive or not. -/
def sendAll (commands : List Command) (stream : Stream) : Stream :=
  commands.foldl (fun stream command => (Emitter.send command stream).2) stream

theorem Carries.sendAll (carries : Carries limit message earlier stream)
    (commands : List Command) :
    Carries limit message (earlier ++ commands) (stream.sendAll commands) := by
  induction commands generalizing earlier stream with
  | nil => rwa [List.append_nil]
  | cons command rest ih =>
    rw [List.append_cons]
    exact ih (carries.send command).1

/-- Each command arrives exactly if it fits after those before it. -/
theorem Carries.handOver (carries : Carries limit message earlier stream)
    (commands : List Command) :
    Emitter.handOver commands stream = commands.mapIdx fun moment command =>
      ⟨command, arrival limit message (earlier ++ commands.take (moment + 1))⟩ := by
  induction commands generalizing earlier stream with
  | nil => rfl
  | cons command rest ih =>
    obtain ⟨next, result⟩ := carries.send command
    have now : Emitter.delivery command stream =
        ⟨command, arrival limit message (earlier ++ [command])⟩ := by
      rw [Emitter.delivery, result]
      rcases arrival limit message (earlier ++ [command]) with err | ⟨⟩ <;> rfl
    rw [Emitter.handOver, now, ih next, List.mapIdx_cons]
    simp only [List.take_succ_cons, List.take_zero, List.append_assoc, List.singleton_append]

theorem carries_empty (limit : Nat) (message : String) :
    Carries limit message [] { room := some limit, fault := message } where
  toHolds := holds_empty limit message
  fault := rfl

end SmtSession.Stream
