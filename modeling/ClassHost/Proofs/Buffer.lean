import ClassHost.Buffer
import ClassHost.Proofs.Effect
import ClassHost.Proofs.ClassFile.FileParts

/-!
# Reading loses nothing

A buffer is read again and again, and a read that finds too little does not end that. Nothing is
known of a buffer but its laws; seen through them, a read either takes its bytes off the front
(`Lawful.exists_perform`) or leaves all of them where they are (`Lawful.perform_of_lt`). `Attempt`
says everything about one read. It also says what a reader of class files does with the same bytes,
so that what holds of reads in place holds of the parser: its readers of numbers and bytes are these
reads (`Read.reader_eq`).

Main result:

* `reads_lossless` — in every sequence of reads, each read is an `Attempt` on what the reads in
  front of it have left. What fails is as if it had not been tried. The values, written again in
  order, and what is left behind them are the bytes that the buffer had.
-/

namespace ClassHost.Buffer

variable {α β γ : Type} {buffer : Buffer β} {contents : β → Bytes} {b : β}

-- ---------------------------------------------------------------------------
-- What reads give
-- ---------------------------------------------------------------------------

def Value.map (f : β → γ) : Value β → Value γ
  | number kind bits => .number kind bits
  | bytes data => .bytes (f data)

/-- The read that gives a value. -/
def Value.read : Value Bytes → Read
  | number kind _ => .number kind
  | bytes data => .bytes data.length

/-- Numbers most significant byte first, and bytes as they are. -/
def Value.written : Value Bytes → Bytes
  | number kind bits => Bytes.bigEndian kind.width bits.toNat
  | bytes data => data

/-- What a read makes of its bytes. -/
def Read.decode : Read → Bytes → Value Bytes
  | number kind, front => .number kind (.ofNat _ (Bytes.toNat front))
  | bytes _, front => .bytes front

/-- A number has room for what its bytes say. -/
theorem toNat_ofNat_toNat {kind : Number} {front : Bytes} (h : front.length = kind.width) :
    (BitVec.ofNat (8 * kind.width) (Bytes.toNat front)).toNat = Bytes.toNat front := by
  rw [BitVec.toNat_ofNat, Nat.pow_mul, ← h]
  exact Nat.mod_eq_of_lt (Bytes.toNat_lt front)

/-- The bytes of a read can be had back from what it gives. -/
theorem written_decode {read : Read} {front : Bytes} (h : front.length = read.size) :
    (read.decode front).written = front := by
  cases read with
  | number kind =>
    rw [Read.decode, Value.written, toNat_ofNat_toNat h]
    rw [Read.size] at h
    rw [← h, Bytes.bigEndian_toNat]
  | bytes count => rfl

theorem read_decode {read : Read} {front : Bytes} (h : front.length = read.size) :
    (read.decode front).read = read := by
  cases read with
  | number kind => rfl
  | bytes count => rw [Read.decode, Value.read, h, Read.size]

-- ---------------------------------------------------------------------------
-- The reading of class files
-- ---------------------------------------------------------------------------

/-- The reader of class files that reads the same. It takes floating point numbers as words. -/
def Read.reader : Read → Reader (Value Bytes)
  | number .u8 => do return .number .u8 (← Reader.u8).toBitVec
  | number .u16 => do return .number .u16 (← Reader.u16).toBitVec
  | number .u32 => do return .number .u32 (← Reader.u32).toBitVec
  | number .u64 => do return .number .u64 (← Reader.u64).toBitVec
  | number .f32 => do return .number .f32 (← Reader.u32).toBitVec
  | number .f64 => do return .number .f64 (← Reader.u64).toBitVec
  | bytes count => do return .bytes (← Reader.bytes count)

theorem Read.reader_eq (read : Read) :
    read.reader = Reader.bytes read.size >>= fun front => pure (read.decode front) := by
  cases read with
  | number kind =>
    cases kind <;>
      simp only [reader, Reader.u8, Reader.u16, Reader.u32, Reader.u64, Reader.word, bind_assoc,
        pure_bind] <;> rfl
  | bytes count => rfl

theorem run_reader_of_lt {read : Read} {input : Bytes} (h : input.length < read.size) :
    read.reader.run input = .error (.endOfInput ⟨read.size, input.length⟩) := by
  rw [read.reader_eq, StateT.run_bind, Reader.run_bytes_of_lt h]
  rfl

theorem run_reader_of_le {read : Read} {input : Bytes} (h : read.size ≤ input.length) :
    read.reader.run input = .ok (read.decode (input.take read.size), input.drop read.size) := by
  rw [read.reader_eq, StateT.run_bind, Reader.run_bytes_of_le h]
  rfl

-- ---------------------------------------------------------------------------
-- One read
-- ---------------------------------------------------------------------------

theorem checked_of_lt {wanted : Nat} (read : β → Option (α × β))
    (h : buffer.remaining b < wanted) :
    buffer.checked wanted read b = (.error (.endOfInput ⟨wanted, buffer.remaining b⟩), b) := by
  rw [checked, Effect.get_bind]
  dsimp only
  rw [if_pos h]
  rfl

theorem checked_of_le {wanted : Nat} {read : β → Option (α × β)} {a : α} {behind : β}
    (h : wanted ≤ buffer.remaining b) (hread : read b = some (a, behind)) :
    buffer.checked wanted read b = (.ok a, behind) := by
  rw [checked, Effect.get_bind]
  dsimp only
  rw [if_neg (Nat.not_lt.mpr h)]
  show plainly read b = _
  rw [plainly, hread]

/-- A read that wants more than there is changes nothing. -/
theorem Lawful.perform_of_lt (h : buffer.Lawful contents) {read : Read}
    (hlt : (contents b).length < read.size) :
    read.perform buffer b =
      (.error (.endOfInput ⟨read.size, (contents b).length⟩), b) := by
  rw [← h.remaining] at hlt ⊢
  cases read with
  | number kind => exact Effect.bind_of_error (checked_of_lt _ hlt) _
  | bytes count => exact Effect.bind_of_error (checked_of_lt _ hlt) _

/-- A read that finds enough takes it off the front. -/
theorem Lawful.exists_perform (h : buffer.Lawful contents) {read : Read}
    (hle : read.size ≤ (contents b).length) :
    ∃ value behind, read.perform buffer b = (.ok value, behind) ∧
      value.map contents = read.decode ((contents b).take read.size) ∧
      contents behind = (contents b).drop read.size := by
  have hleft := h.remaining b
  -- the check before the read passes, as the buffer tells its length truly
  cases read with
  | number kind =>
    obtain ⟨bits, behind, htake, hbits, hbehind⟩ := h.take kind b hle
    have hchecked := checked_of_le (hleft ▸ hle) htake
    have hdecode : bits = .ofNat _ (Bytes.toNat ((contents b).take kind.width)) := by
      rw [← hbits, BitVec.ofNat_toNat, BitVec.setWidth_eq]
    refine ⟨.number kind bits, behind, Effect.bind_of_ok hchecked _, ?_, hbehind⟩
    rw [hdecode]
    rfl
  | bytes count =>
    obtain ⟨front, behind, hsplit, hfront, hbehind⟩ := h.splitOff count b hle
    have hchecked := checked_of_le (hleft ▸ hle) hsplit
    refine ⟨.bytes front, behind, Effect.bind_of_ok hchecked _, ?_, hbehind⟩
    rw [Value.map, hfront]
    rfl

/-- A read of the bytes `before`, what came of it, if it was made, and the bytes it left. A reader
of class files does the same with these bytes. -/
structure Attempt (contents : β → Bytes) (read : Read) (before : Bytes)
    (outcome : Option (Except Stop (Value β))) (after : Bytes) : Prop where
  succeeds_iff : (∃ value, outcome = some (.ok value)) ↔ read.size ≤ before.length
  given : ∀ value, outcome = some (.ok value) →
    (value.map contents).read = read ∧ (value.map contents).written ++ after = before ∧
      read.reader.run before = .ok (value.map contents, after)
  refused : before.length < read.size →
    outcome = some (.error (.endOfInput ⟨read.size, before.length⟩)) ∧ after = before ∧
      read.reader.run before = .error (.endOfInput ⟨read.size, before.length⟩)

theorem Lawful.attempt (h : buffer.Lawful contents) (read : Read) (b : β) :
    Attempt contents read (contents b) (some (read.perform buffer b).1)
      (contents (read.perform buffer b).2) := by
  rcases Nat.lt_or_ge (contents b).length read.size with hlt | hle
  · rw [h.perform_of_lt hlt]
    exact {
      succeeds_iff := ⟨fun ⟨_, hvalue⟩ => (nomatch hvalue), fun hle => absurd hle (by omega)⟩
      given := nofun
      refused := fun _ => ⟨rfl, rfl, run_reader_of_lt hlt⟩ }
  · obtain ⟨value, behind, hperform, hvalue, hbehind⟩ := h.exists_perform hle
    have hsize : ((contents b).take read.size).length = read.size := List.length_take_of_le hle
    rw [hperform, hbehind]
    refine { succeeds_iff := ⟨fun _ => hle, fun _ => ⟨value, rfl⟩⟩, given := ?_, refused := ?_ }
    · rintro _ ⟨⟩
      rw [hvalue]
      exact ⟨read_decode hsize, by rw [written_decode hsize, List.take_append_drop],
        run_reader_of_le hle⟩
    · exact fun hlt => absurd hle (by omega)

/-- The bytes that a read has gained: its value as it is written, and none if it has stopped. -/
def gained (contents : β → Bytes) : Except Stop (Value β) → Bytes
  | .ok value => (value.map contents).written
  | .error _ => []

/-- One read takes its bytes out of the buffer and gains them, or neither. -/
theorem Attempt.gained_append {read : Read} {before after : Bytes}
    {outcome : Except Stop (Value β)} (h : Attempt contents read before (some outcome) after) :
    gained contents outcome ++ after = before := by
  cases outcome with
  | ok value =>
    obtain ⟨-, hwritten, -⟩ := h.given value rfl
    exact hwritten
  | error stop =>
    have hlt : before.length < read.size := by
      refine Nat.lt_of_not_le fun hle => ?_
      obtain ⟨_, hvalue⟩ := h.succeeds_iff.mpr hle
      exact nomatch hvalue
    obtain ⟨-, hafter, -⟩ := h.refused hlt
    exact hafter

-- ---------------------------------------------------------------------------
-- Many reads
-- ---------------------------------------------------------------------------

/-- What comes of some reads, one by one. -/
def outcomes (buffer : Buffer β) (reads : List Read) (b : β) : List (Except Stop (Value β)) :=
  (buffer.readAll reads b).1

/-- The buffer that some reads leave. -/
def left (buffer : Buffer β) (reads : List Read) (b : β) : β := (buffer.readAll reads b).2

@[simp]
theorem left_nil : left buffer [] b = b := rfl

theorem outcomes_cons (read : Read) (reads : List Read) :
    outcomes buffer (read :: reads) b =
      (read.perform buffer b).1 :: outcomes buffer reads (read.perform buffer b).2 := by
  rw [outcomes, readAll, List.mapM_cons]
  rfl

theorem left_cons (read : Read) (reads : List Read) :
    left buffer (read :: reads) b = left buffer reads (read.perform buffer b).2 := by
  rw [left, readAll, List.mapM_cons]
  rfl

/-- The reads at the end find what those in front of them have left. -/
theorem outcomes_append (front behind : List Read) :
    outcomes buffer (front ++ behind) b =
      outcomes buffer front b ++ outcomes buffer behind (left buffer front b) := by
  induction front generalizing b with
  | nil => rfl
  | cons read front ih => rw [List.cons_append, outcomes_cons, ih, outcomes_cons, left_cons]; rfl

theorem left_append (front behind : List Read) :
    left buffer (front ++ behind) b = left buffer behind (left buffer front b) := by
  induction front generalizing b with
  | nil => rfl
  | cons read front ih => rw [List.cons_append, left_cons, ih, left_cons]

theorem length_outcomes (reads : List Read) : (outcomes buffer reads b).length = reads.length := by
  induction reads generalizing b with
  | nil => rfl
  | cons read reads ih => rw [outcomes_cons, List.length_cons, ih, List.length_cons]

/-- The outcome of one read among others. -/
theorem getElem?_outcomes (front : List Read) (read : Read) (behind : List Read) :
    (outcomes buffer (front ++ read :: behind) b)[front.length]? =
      some (read.perform buffer (left buffer front b)).1 := by
  have hlength : (outcomes buffer front b).length = front.length := length_outcomes front
  rw [outcomes_append, List.getElem?_append_right (Nat.le_of_eq hlength), hlength, Nat.sub_self,
    outcomes_cons, List.getElem?_cons_zero]

/-- A read among others is an attempt on what the reads in front of it have left. -/
theorem Lawful.attempt_of_mem (h : buffer.Lawful contents) (front : List Read) (read : Read)
    (behind : List Read) :
    Attempt contents read (contents (left buffer front b))
      (outcomes buffer (front ++ read :: behind) b)[front.length]?
      (contents (left buffer (front ++ [read]) b)) := by
  rw [getElem?_outcomes, left_append, left_cons, left_nil]
  exact h.attempt read _

/-- Reads that all want too much leave the buffer as it was. -/
theorem Lawful.left_of_forall_lt (h : buffer.Lawful contents) {reads : List Read}
    (hlt : ∀ read ∈ reads, (contents b).length < read.size) : left buffer reads b = b := by
  induction reads with
  | nil => rfl
  | cons read reads ih =>
    obtain ⟨hfirst, hrest⟩ := List.forall_mem_cons.mp hlt
    rw [left_cons, h.perform_of_lt hfirst]
    exact ih hrest

/-- What all reads have gained and what is left are the bytes that there were. -/
theorem Lawful.gained_outcomes (h : buffer.Lawful contents) (reads : List Read) (b : β) :
    (outcomes buffer reads b).flatMap (gained contents) ++ contents (left buffer reads b) =
      contents b := by
  induction reads generalizing b with
  | nil => rfl
  | cons read reads ih =>
    rw [outcomes_cons, left_cons, List.flatMap_cons, List.append_assoc, ih,
      (h.attempt read b).gained_append]

/-- **Reads lose nothing.** Let a buffer be read any number of times, for numbers of all kinds and
for any numbers of bytes. Each read, on what the reads in front of it have left, gives a value
exactly if as many bytes are left as it takes; the value is of the kind that was asked for, and is
written as the bytes that are missing afterwards. Otherwise the read says how much it wanted and how
much was left, never panics, and leaves the buffer as it was: after any number of such reads, one
that wants no more than is left gives the bytes at the front. All in all, the values, written again
in order, with what is left in the end behind them are the bytes of the buffer. -/
theorem reads_lossless (h : buffer.Lawful contents) (reads : List Read) (b : β) :
    (outcomes buffer reads b).length = reads.length ∧
    (∀ front read behind, reads = front ++ read :: behind →
      Attempt contents read (contents (left buffer front b))
        (outcomes buffer reads b)[front.length]?
        (contents (left buffer (front ++ [read]) b))) ∧
    (∀ front failing read behind, reads = front ++ (failing ++ read :: behind) →
      (∀ longer ∈ failing, (contents (left buffer front b)).length < longer.size) →
      read.size ≤ (contents (left buffer front b)).length →
      ∃ value, (outcomes buffer reads b)[(front ++ failing).length]? = some (.ok value) ∧
        (value.map contents).written = (contents (left buffer front b)).take read.size) ∧
    (outcomes buffer reads b).flatMap (gained contents) ++ contents (left buffer reads b) =
      contents b := by
  refine ⟨length_outcomes reads, ?_, ?_, h.gained_outcomes reads b⟩
  · rintro front read behind rfl
    exact h.attempt_of_mem front read behind
  · rintro front failing read behind rfl hfailing hle
    -- a failing read takes nothing, so the later read finds what the first of them found
    have hleft : left buffer (front ++ failing) b = left buffer front b := by
      rw [left_append, h.left_of_forall_lt hfailing]
    obtain ⟨value, _, hperform, hvalue, -⟩ := h.exists_perform hle
    refine ⟨value, ?_, ?_⟩
    · rw [← List.append_assoc, getElem?_outcomes, hleft, hperform]
    · rw [hvalue, written_decode (List.length_take_of_le hle)]

theorem lawful_ofBytes : ofBytes.Lawful id where
  remaining _ := rfl
  take kind bytes h := by
    refine ⟨.ofNat _ (Bytes.toNat (bytes.take kind.width)), bytes.drop kind.width, ?_,
      toNat_ofNat_toNat (List.length_take_of_le h), rfl⟩
    exact if_neg (Nat.not_lt.mpr h)
  splitOff count bytes h :=
    ⟨bytes.take count, bytes.drop count, if_neg (Nat.not_lt.mpr h), rfl, rfl⟩

/-- Reads of all sorts, more than half of which want too much of `sampleBytes`. -/
def sampleReads : List Read :=
  [.number .u64, .number .u16, .number .f32, .bytes 3, .number .f64, .number .u8, .number .u8]

/-- The four bytes in the middle are a signalling NaN. -/
def sampleBytes : Bytes := [0xCA, 0xFE, 0x7F, 0x80, 0x00, 0x01, 0x2A]

/-- The last byte is there for whoever wants no more than one. -/
theorem sampleReads_lossless :
    ofBytes.Lawful id ∧
    outcomes ofBytes sampleReads sampleBytes =
      [.error (.endOfInput ⟨8, 7⟩), .ok (.number .u16 0xCAFE), .ok (.number .f32 0x7F800001),
        .error (.endOfInput ⟨3, 1⟩), .error (.endOfInput ⟨8, 1⟩), .ok (.number .u8 0x2A),
        .error (.endOfInput ⟨1, 0⟩)] ∧
    Attempt id (.bytes 3) [0x2A] (some (.error (.endOfInput ⟨3, 1⟩))) [0x2A] ∧
    (∃ value : Value Bytes, (outcomes ofBytes sampleReads sampleBytes)[5]? = some (.ok value) ∧
      (value.map id).written = [0x2A]) ∧
    (outcomes ofBytes sampleReads sampleBytes).flatMap (gained id) ++
      left ofBytes sampleReads sampleBytes = sampleBytes := by
  obtain ⟨-, hattempt, hlater, hgained⟩ := reads_lossless lawful_ofBytes sampleReads sampleBytes
  have hfailed := hattempt [.number .u64, .number .u16, .number .f32] (.bytes 3)
    [.number .f64, .number .u8, .number .u8] rfl
  have hlast := hlater [.number .u64, .number .u16, .number .f32] [.bytes 3, .number .f64]
    (.number .u8) [.number .u8] rfl (by decide) (by decide)
  exact ⟨lawful_ofBytes, rfl, hfailed, hlast, hgained⟩

end ClassHost.Buffer
