import ClassHost.Proofs.ClassFile.FileParts
import Mathlib.Logic.Relation
import Mathlib.Order.WellFounded

/-!
# The index of the pool

The pool of a class file is filled by a loop that counts slots in a word of sixteen bits. An entry
moves the index on by one, or by two, and the count may be the largest number of such a word: then a
64-bit number in the last slot moves the index to the very end of its range. `Round` is one round of
that loop and `Stops` the way it is left, both with arithmetic that wraps; `readSlots`, which counts
the slots that are left without bound, is equal to it (`Round.readSlots_eq`, `Stops.readSlots_eq`).

Main result:

* `parse_ends` — nothing ever wraps. In every state of every loop the index is the number of slots
  that are filled; a round moves it strictly forward and takes at least one byte off; one can be
  subtracted from the count and from every index that is looked up. Rounds cannot go on forever,
  and so reading with this loop ends on every input, with what `parse` returns.
-/

namespace ClassHost.ClassFile

open Reader Relation

-- ---------------------------------------------------------------------------
-- The loop
-- ---------------------------------------------------------------------------

/-- The loop between two entries: the index, the slots so far and the bytes that are left. -/
structure Filling where
  index : UInt16
  pool : ConstantPool
  input : Bytes

namespace Filling

/-- Before the first entry. -/
def start (body : Bytes) : Filling := ⟨0, .empty, body⟩

/-- An entry goes into its slots, and the index goes past them. -/
def after (s : Filling) (entry : Constant) (rest : Bytes) : Filling :=
  if entry.isWide then ⟨s.index + 1 + 1, (s.pool.push entry).push .reserved, rest⟩
  else ⟨s.index + 1, s.pool.push entry, rest⟩

end Filling

/-- One round: while the index is below the last slot of the count, an entry is read. -/
inductive Round (count : UInt16) : Filling → Filling → Prop where
  | intro {s : Filling} {entry : Constant} {rest : Bytes} (hbelow : s.index < count - 1)
      (hread : readConstant.run s.input = .ok (entry, rest)) : Round count s (s.after entry rest)

/-- The loop ends with its pool and the bytes that are left, or with a fault. -/
inductive Stops (count : UInt16) (s : Filling) : Except ClassFileFault (ConstantPool × Bytes) → Prop
    where
  | full (habove : ¬ s.index < count - 1) : Stops count s (.ok (s.pool, s.input))
  | fault {fault : ClassFileFault} (hbelow : s.index < count - 1)
      (hread : readConstant.run s.input = .error fault) : Stops count s (.error fault)

/-- What a round has to do: the index goes forward by as many slots as the pool has gained, and
bytes have been taken off. -/
structure Advances (s s' : Filling) : Prop where
  forward : s.index < s'.index
  exact : s'.index.toNat + s.pool.size = s.index.toNat + s'.pool.size
  consumes : s'.input.length < s.input.length

variable {count : UInt16} {s s' : Filling}

-- ---------------------------------------------------------------------------
-- One round
-- ---------------------------------------------------------------------------

/-- An entry has at least its tag. -/
theorem length_lt_of_readConstant {input rest : Bytes} {entry : Constant}
    (h : readConstant.run input = .ok (entry, rest)) : rest.length < input.length := by
  obtain ⟨byte, tag, behind, rfl, -, -, hentry⟩ := exists_tag h
  obtain ⟨front, rfl, -⟩ := exact_readConstantOf tag behind entry rest hentry
  have htag : (Layout.u1 byte).length = 1 := Bytes.length_bigEndian 1 _
  simp only [List.length_append, htag]
  omega

/-- One can be subtracted from a count that is not zero. -/
theorem toNat_sub_one {n : UInt16} (h : n ≠ 0) : (n - 1).toNat + 1 = n.toNat := by
  have hpositive : n.toNat ≠ 0 := fun hzero => h (UInt16.toNat_inj.mp hzero)
  have hle : (1 : UInt16) ≤ n := by
    rw [UInt16.le_iff_toNat_le]
    show 1 ≤ n.toNat
    omega
  rw [UInt16.toNat_sub_of_le _ _ hle]
  show n.toNat - 1 + 1 = n.toNat
  omega

/-- Below the last slot of a count there is room for two more, and no further than the count. -/
theorem toNat_index_add (hcount : count ≠ 0) {index : UInt16} (h : index < count - 1) :
    (index + 1).toNat = index.toNat + 1 ∧ (index + 1 + 1).toNat = index.toNat + 2 ∧
      index.toNat + 2 ≤ count.toNat := by
  have hlimit := count.toNat_lt
  have hlast := toNat_sub_one hcount
  rw [UInt16.lt_iff_toNat_lt] at h
  have hone : (index + 1).toNat = index.toNat + 1 := by
    rw [UInt16.toNat_add]
    show (index.toNat + 1) % 2 ^ 16 = index.toNat + 1
    omega
  have htwo : (index + 1 + 1).toNat = index.toNat + 2 := by
    rw [UInt16.toNat_add, hone]
    show (index.toNat + 1 + 1) % 2 ^ 16 = index.toNat + 2
    omega
  exact ⟨hone, htwo, by omega⟩

theorem Filling.after_wide {entry : Constant} (h : entry.isWide = true) (s : Filling)
    (rest : Bytes) :
    s.after entry rest = ⟨s.index + 1 + 1, (s.pool.push entry).push .reserved, rest⟩ :=
  if_pos h

theorem Filling.after_narrow {entry : Constant} (h : ¬ entry.isWide = true) (s : Filling)
    (rest : Bytes) : s.after entry rest = ⟨s.index + 1, s.pool.push entry, rest⟩ :=
  if_neg h

@[simp]
theorem Filling.input_after (s : Filling) (entry : Constant) (rest : Bytes) :
    (s.after entry rest).input = rest := by
  unfold after
  split <;> rfl

/-- An entry moves the index by the number of its slots, which is one or two. -/
theorem Filling.exists_width (hcount : count ≠ 0) (hbelow : s.index < count - 1) (entry : Constant)
    (rest : Bytes) :
    ∃ width, 0 < width ∧ s.index.toNat + width ≤ count.toNat ∧
      (s.after entry rest).index.toNat = s.index.toNat + width ∧
      (s.after entry rest).pool.size = s.pool.size + width := by
  obtain ⟨hone, htwo, hlimit⟩ := toNat_index_add hcount hbelow
  have hsize : ∀ (pool : ConstantPool) (entry : Constant), (pool.push entry).size = pool.size + 1 :=
    fun pool entry => Array.size_push entry
  by_cases hwide : entry.isWide = true
  · rw [after_wide hwide]
    exact ⟨2, by omega, hlimit, htwo, by rw [hsize, hsize]⟩
  · rw [after_narrow hwide]
    exact ⟨1, by omega, by omega, hone, hsize s.pool entry⟩

theorem Round.consumes (h : Round count s s') : s'.input.length < s.input.length := by
  obtain ⟨-, hread⟩ := h
  rw [Filling.input_after]
  exact length_lt_of_readConstant hread

/-- **One round.** -/
theorem Round.advances (h : Round count s s') (hcount : count ≠ 0) :
    Advances s s' ∧ s'.index.toNat ≤ count.toNat := by
  have hconsumes := h.consumes
  obtain ⟨hbelow, hread⟩ := h
  rename_i entry rest
  obtain ⟨width, hpositive, hlimit, hindex, hsize⟩ :=
    Filling.exists_width hcount hbelow entry rest
  have hforward : s.index < (s.after entry rest).index := by
    rw [UInt16.lt_iff_toNat_lt]
    omega
  exact ⟨⟨hforward, by omega, hconsumes⟩, by omega⟩

/-- Rounds cannot go on forever, since bytes are used up. -/
theorem wellFounded_round (count : UInt16) : WellFounded fun s' s => Round count s s' :=
  Subrelation.wf (fun h => h.consumes) (measure fun s : Filling => s.input.length).wf

/-- Where no round is possible the loop is left. -/
theorem round_or_stops (count : UInt16) (s : Filling) :
    (∃ s', Round count s s') ∨ ∃ result, Stops count s result := by
  by_cases hbelow : s.index < count - 1
  · cases hread : readConstant.run s.input with
    | ok result => exact .inl ⟨_, .intro hbelow hread⟩
    | error fault => exact .inr ⟨_, .fault hbelow hread⟩
  · exact .inr ⟨_, .full hbelow⟩

-- ---------------------------------------------------------------------------
-- Runs
-- ---------------------------------------------------------------------------

/-- **All rounds.** The index is the number of slots that are filled, and the count bounds it. -/
theorem index_of_run {body : Bytes} (hcount : count ≠ 0)
    (hrun : ReflTransGen (Round count) (.start body) s) :
    s.index.toNat = s.pool.size ∧ s.pool.size ≤ count.toNat := by
  induction hrun with
  | refl => exact ⟨rfl, Nat.zero_le _⟩
  | tail _ hround ih =>
    obtain ⟨hadvances, hlimit⟩ := hround.advances hcount
    have hexact := hadvances.exact
    omega

/-- Every run goes on until the loop is left. -/
theorem exists_stops (count : UInt16) (s : Filling) :
    ∃ last result, ReflTransGen (Round count) s last ∧ Stops count last result := by
  induction s using (wellFounded_round count).induction with
  | _ s ih =>
    rcases round_or_stops count s with ⟨s', hround⟩ | ⟨result, hstops⟩
    · obtain ⟨last, result, hrun, hstops⟩ := ih s' hround
      exact ⟨last, result, hrun.head hround, hstops⟩
    · exact ⟨s, result, .refl, hstops⟩

-- ---------------------------------------------------------------------------
-- The same loop
-- ---------------------------------------------------------------------------

/-- How many slots are left. -/
def Filling.left (count : UInt16) (s : Filling) : Nat := (count - 1).toNat - s.index.toNat

theorem Filling.exists_left (hbelow : s.index < count - 1) :
    ∃ left, s.left count = left + 1 := by
  rw [UInt16.lt_iff_toNat_lt] at hbelow
  exact Nat.exists_eq_add_one.mpr (Nat.sub_pos_of_lt hbelow)

/-- A round reads what counting the slots that are left reads. -/
theorem Round.readSlots_eq (h : Round count s s') (hcount : count ≠ 0) :
    (readSlots (s.left count) s.pool).run s.input =
      (readSlots (s'.left count) s'.pool).run s'.input := by
  obtain ⟨hbelow, hread⟩ := h
  rename_i entry rest
  -- below the limit the index does not wrap, so what is left to fill goes down by what was filled
  obtain ⟨hone, htwo, -⟩ := toNat_index_add hcount hbelow
  obtain ⟨left, hleft⟩ := Filling.exists_left hbelow
  rw [hleft, readSlots, StateT.run_bind, hread]
  unfold Filling.left at hleft
  by_cases hwide : entry.isWide = true
  · have hrest : (s.after entry rest).left count = left - 1 := by
      rw [Filling.after_wide hwide]
      show (count - 1).toNat - (s.index + 1 + 1).toNat = left - 1
      omega
    rw [hrest, Filling.after_wide hwide]
    show StateT.run (if entry.isWide = true then _ else _) rest = _
    rw [if_pos hwide]
    -- with one slot left both are at their end
    cases left with
    | zero => rfl
    | succ left => rfl
  · have hrest : (s.after entry rest).left count = left := by
      rw [Filling.after_narrow hwide]
      show (count - 1).toNat - (s.index + 1).toNat = left
      omega
    rw [hrest, Filling.after_narrow hwide]
    show StateT.run (if entry.isWide = true then _ else _) rest = _
    rw [if_neg hwide]

theorem Stops.readSlots_eq {result : Except ClassFileFault (ConstantPool × Bytes)}
    (h : Stops count s result) : (readSlots (s.left count) s.pool).run s.input = result := by
  cases h with
  | full habove =>
    have hleft : s.left count = 0 := by
      rw [UInt16.lt_iff_toNat_lt] at habove
      unfold Filling.left
      omega
    rw [hleft]
    rfl
  | fault hbelow hread =>
    obtain ⟨left, hleft⟩ := Filling.exists_left hbelow
    rw [hleft, readSlots, StateT.run_bind, hread]
    rfl

theorem readSlots_of_rounds (hcount : count ≠ 0) (hrun : ReflTransGen (Round count) s s') :
    (readSlots (s.left count) s.pool).run s.input =
      (readSlots (s'.left count) s'.pool).run s'.input := by
  induction hrun with
  | refl => rfl
  | tail _ hround ih => exact ih.trans (hround.readSlots_eq hcount)

/-- **The loop is the reader of the slots.** -/
theorem readSlots_of_run {body : Bytes} {result : Except ClassFileFault (ConstantPool × Bytes)}
    (hcount : count ≠ 0) (hrun : ReflTransGen (Round count) (.start body) s)
    (hstops : Stops count s result) : (readSlots (count.toNat - 1) .empty).run body = result := by
  have hleft : (Filling.start body).left count = count.toNat - 1 := by
    have hlast := toNat_sub_one hcount
    show (count - 1).toNat - 0 = count.toNat - 1
    omega
  have hrounds := readSlots_of_rounds hcount hrun
  rw [hstops.readSlots_eq, hleft] at hrounds
  exact hrounds

-- ---------------------------------------------------------------------------
-- Whole files
-- ---------------------------------------------------------------------------

/-- What stands in front of the entries. -/
structure Header where
  minorVersion : UInt16
  majorVersion : UInt16
  count : UInt16

/-- The header, with a count that is not zero. -/
def readHeader : Reader Header := do
  let found ← u32
  if found ≠ magic then throw (.badMagic found)
  let minorVersion ← u16
  let majorVersion ← u16
  let count ← u16
  if count = 0 then throw .emptyPoolCount
  return ⟨minorVersion, majorVersion, count⟩

/-- What is read once the pool is filled. -/
def readChecked (header : Header) (pool : ConstantPool) : Reader ClassFile := do
  lookUp pool.check
  readBehind header.minorVersion header.majorVersion pool

/-- A file is its header, its slots and what is read once these are known. -/
theorem read_eq : read = readHeader >>= fun header =>
    readSlots (header.count.toNat - 1) .empty >>= fun pool => readChecked header pool := by
  unfold read readHeader readPool
  simp only [bind_assoc]
  refine bind_congr fun found => ?_
  by_cases hmagic : found = magic
  · rw [if_neg (not_not.mpr hmagic), if_neg (not_not.mpr hmagic)]
    simp only [bind_assoc]
    refine bind_congr fun minorVersion => bind_congr fun majorVersion => bind_congr fun count => ?_
    by_cases hcount : count = 0
    · rw [if_pos hcount, if_pos hcount]
      rfl
    · rw [if_neg hcount, if_neg hcount]
      rfl
  · rw [if_pos hmagic, if_pos hmagic]
    rfl

/-- A file has to end where the input ends. -/
def complete : Except ClassFileFault (ClassFile × Bytes) → Except ClassFileFault ClassFile
  | .error fault => .error fault
  | .ok (file, []) => .ok file
  | .ok (_, _ :: _) => .error .trailingBytes

theorem parse_eq_complete (input : Bytes) : parse input = complete (read.run input) := rfl

/-- What a file is read as, with the loop: its header, then rounds until the loop is left, then the
rest. -/
inductive Ends (input : Bytes) : Except ClassFileFault ClassFile → Prop where
  | header {fault : ClassFileFault} (h : readHeader.run input = .error fault) :
      Ends input (.error fault)
  | slots {header : Header} {body : Bytes} {s : Filling} {fault : ClassFileFault}
      (h : readHeader.run input = .ok (header, body))
      (hrun : ReflTransGen (Round header.count) (.start body) s)
      (hstops : Stops header.count s (.error fault)) : Ends input (.error fault)
  | rest {header : Header} {body rest : Bytes} {s : Filling} {pool : ConstantPool}
      (h : readHeader.run input = .ok (header, body))
      (hrun : ReflTransGen (Round header.count) (.start body) s)
      (hstops : Stops header.count s (.ok (pool, rest))) :
      Ends input (complete ((readChecked header pool).run rest))

theorem count_ne_zero_of_header {input body : Bytes} {header : Header}
    (h : readHeader.run input = .ok (header, body)) : header.count ≠ 0 := by
  obtain ⟨found, _, -, h⟩ := run_bind_ok h
  dsimp only at h
  split at h
  · exact nomatch h
  · obtain ⟨minorVersion, _, -, h⟩ := run_bind_ok h
    obtain ⟨majorVersion, _, -, h⟩ := run_bind_ok h
    obtain ⟨count, _, -, h⟩ := run_bind_ok h
    split at h
    · exact nomatch h
    · rename_i hcount
      obtain ⟨rfl, -⟩ := Prod.mk.inj (Except.ok.inj h)
      exact hcount

/-- Behind the header the slots come, and then the rest. -/
theorem run_read_of_header {input body : Bytes} {header : Header}
    {result : Except ClassFileFault (ConstantPool × Bytes)}
    (h : readHeader.run input = .ok (header, body))
    (hslots : (readSlots (header.count.toNat - 1) .empty).run body = result) :
    read.run input = result.bind fun slots => (readChecked header slots.1).run slots.2 := by
  rw [read_eq, StateT.run_bind, h]
  show (readSlots (header.count.toNat - 1) .empty >>= fun pool => readChecked header pool).run
    body = _
  rw [StateT.run_bind, hslots]
  rfl

/-- Reading with the loop ends with what the parser returns. -/
theorem parse_of_ends {input : Bytes} {result : Except ClassFileFault ClassFile}
    (h : Ends input result) : parse input = result := by
  rw [parse_eq_complete]
  cases h with
  | header h =>
    rw [read_eq, StateT.run_bind, h]
    rfl
  | slots h hrun hstops =>
    rw [run_read_of_header h (readSlots_of_run (count_ne_zero_of_header h) hrun hstops)]
    rfl
  | rest h hrun hstops =>
    rw [run_read_of_header h (readSlots_of_run (count_ne_zero_of_header h) hrun hstops)]
    rfl

/-- Reading with the loop ends. -/
theorem exists_ends (input : Bytes) : ∃ result, Ends input result := by
  cases hheader : readHeader.run input with
  | error fault => exact ⟨_, .header hheader⟩
  | ok header =>
    obtain ⟨s, slots, hrun, hstops⟩ := exists_stops header.1.count (.start header.2)
    cases slots with
    | error fault => exact ⟨_, .slots hheader hrun hstops⟩
    | ok slots => exact ⟨_, .rest hheader hrun hstops⟩

/-- A slot is looked up at the index less one, in words of sixteen bits. -/
theorem get_eq (pool : ConstantPool) {index : UInt16} (h : index ≠ 0) :
    pool.get index =
      match pool.entries[(index - 1).toNat]? with
      | some entry => .ok entry
      | none => .error (.outOfRange index.toNat pool.size) := by
  have hindex : (index - 1).toNat = index.toNat - 1 := by
    have hlast := toNat_sub_one h
    omega
  have hget : pool.get index =
      match pool.entries[index.toNat - 1]? with
      | some entry => .ok entry
      | none => .error (.outOfRange index.toNat pool.size) := if_neg h
  rw [hget, hindex]

/-- **Reading ends, and no index wraps.** Let the input be any byte string. If it has a header that
can be read, then in every state that the loop over the slots comes to, one can be subtracted from
the count, the index is the number of slots that are filled and at most the count, and the next
round moves it strictly forward, by as many slots as it fills, and takes at least one byte off. In
every pool, one can be subtracted from an index that is looked up. No rounds go on forever. So
reading with the loop ends, with a class file or with a fault, and with nothing but what `parse`
returns. -/
theorem parse_ends (input : Bytes) :
    (∀ header body s, readHeader.run input = .ok (header, body) →
      ReflTransGen (Round header.count) (.start body) s →
      (header.count - 1).toNat + 1 = header.count.toNat ∧
      s.index.toNat = s.pool.size ∧ s.index.toNat ≤ header.count.toNat ∧
      ∀ s', Round header.count s s' → Advances s s') ∧
    (∀ (pool : ConstantPool) (index : UInt16), index ≠ 0 →
      (index - 1).toNat + 1 = index.toNat ∧
      pool.get index =
        match pool.entries[(index - 1).toNat]? with
        | some entry => .ok entry
        | none => .error (.outOfRange index.toNat pool.size)) ∧
    (∀ count, WellFounded fun s' s => Round count s s') ∧
    ((∃ file, Ends input (.ok file)) ∨ ∃ fault, Ends input (.error fault)) ∧
    ∀ result, Ends input result ↔ parse input = result := by
  obtain ⟨ended, hended⟩ := exists_ends input
  refine ⟨fun header body s hheader hrun => ?_, fun pool index hindex =>
    ⟨toNat_sub_one hindex, get_eq pool hindex⟩, wellFounded_round, ?_, fun result => ?_⟩
  · have hcount := count_ne_zero_of_header hheader
    obtain ⟨hindex, hlimit⟩ := index_of_run hcount hrun
    exact ⟨toNat_sub_one hcount, hindex, by omega, fun s' hround => (hround.advances hcount).1⟩
  · cases ended with
    | ok file => exact .inl ⟨file, hended⟩
    | error fault => exact .inr ⟨fault, hended⟩
  · refine ⟨parse_of_ends, ?_⟩
    rintro rfl
    rwa [parse_of_ends hended]

/-- So many entries with an empty text. -/
def emptyTexts (n : Nat) : Bytes := (List.replicate n [1, 0, 0]).flatten

/-- A round, with what is there after it written out. -/
theorem Round.of_eq {entry : Constant} {rest : Bytes} (hbelow : s.index < count - 1)
    (hread : readConstant.run s.input = .ok (entry, rest)) (hafter : s.after entry rest = s') :
    Round count s s' := by
  subst hafter
  exact .intro hbelow hread

/-- Entries of one slot take the index up to any place below the largest count. -/
theorem run_emptyTexts (more : Bytes) {n : Nat} (hn : n ≤ 65534) :
    ReflTransGen (Round 65535) (.start (emptyTexts n ++ more))
      ⟨n.toUInt16, ⟨Array.replicate n (.utf8 "")⟩, more⟩ := by
  induction n generalizing more with
  | zero => exact .refl
  | succ n ih =>
    have hbytes : emptyTexts (n + 1) ++ more = emptyTexts n ++ ([1, 0, 0] ++ more) := by
      simp [emptyTexts, List.replicate_succ']
    have hindex : n.toUInt16.toNat = n := Text.toNat_toUInt16 (by omega)
    have hbelow : n.toUInt16 < 65535 - 1 := by
      rw [UInt16.lt_iff_toNat_lt, hindex]
      show n < 65534
      omega
    -- the last round is the one that is added, so the induction is over the rounds before it
    have hnext : n.toUInt16 + 1 = (n + 1).toUInt16 := by
      apply UInt16.toNat_inj.mp
      have hsucc : (n + 1).toUInt16.toNat = n + 1 := Text.toNat_toUInt16 (by omega)
      obtain ⟨hone, -⟩ := toNat_index_add (by decide) hbelow
      rw [hone, hindex, hsucc]
    have hread : readConstant.run ([1, 0, 0] ++ more) = .ok (.utf8 "", more) := rfl
    have hround : Round 65535 ⟨n.toUInt16, ⟨Array.replicate n (.utf8 "")⟩, [1, 0, 0] ++ more⟩
        ⟨n.toUInt16 + 1, ⟨(Array.replicate n (.utf8 "")).push (.utf8 "")⟩, more⟩ :=
      .of_eq hbelow hread rfl
    rw [hnext, ← Array.replicate_succ] at hround
    rw [hbytes]
    exact (ih ([1, 0, 0] ++ more) (by omega)).tail hround

/-- The entries of a file of the largest count with a 64-bit number in the last slot. -/
def fullBody : Bytes := emptyTexts 65533 ++ [5, 0, 0, 0, 0, 0, 0, 0, 9]

def fullFile : Bytes := [0xCA, 0xFE, 0xBA, 0xBE, 0, 0, 0, 52, 0xFF, 0xFF] ++ fullBody

/-- The number in the last slot moves the index to the largest word, not past it. -/
theorem fullFile_reaches_limit :
    ∃ s s', ReflTransGen (Round 65535) (.start fullBody) s ∧ Round 65535 s s' ∧
      s'.index = 65535 ∧ s'.index.toNat = s'.pool.size ∧ s.index < s'.index ∧
      Stops 65535 s' (.ok (s'.pool, [])) ∧ ∃ result, Ends fullFile result := by
  have hheader : readHeader.run fullFile = .ok (⟨0, 52, 65535⟩, fullBody) := rfl
  have hrun : ReflTransGen (Round 65535) (.start fullBody) _ := run_emptyTexts _ (by decide)
  have hread : readConstant.run [5, 0, 0, 0, 0, 0, 0, 0, 9] = .ok (.long 9, []) := rfl
  have hround : Round 65535
      ⟨(65533 : Nat).toUInt16, ⟨Array.replicate 65533 (.utf8 "")⟩, [5, 0, 0, 0, 0, 0, 0, 0, 9]⟩
      ⟨65535, ((⟨Array.replicate 65533 (.utf8 "")⟩ : ConstantPool).push (.long 9)).push .reserved,
        []⟩ :=
    .of_eq (by decide) hread rfl
  obtain ⟨hloop, -, -, -, hends⟩ := parse_ends fullFile
  obtain ⟨-, -, -, hadvances⟩ := hloop _ _ _ hheader hrun
  obtain ⟨-, hindex, -⟩ := hloop _ _ _ hheader (hrun.tail hround)
  exact ⟨_, _, hrun, hround, rfl, hindex, (hadvances _ hround).forward, .full (by decide),
    _, (hends _).mpr rfl⟩

end ClassHost.ClassFile
