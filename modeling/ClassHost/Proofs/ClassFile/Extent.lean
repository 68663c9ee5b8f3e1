import ClassHost.ClassFile.Parser

/-!
# How far a reader reads

A reader of class files decides on the bytes that it takes off the front and on nothing else.
`Reads reader front a` says so of one run: whatever follows `front`, the reader returns `a` and
leaves what follows; and on any shorter piece of `front` it reports that the input ends too early.
A reader is **exact** if each of its successful runs is of this kind.

Exactness is closed under the ways in which readers are put together, so that every reader of the
format has it, down from `Reader.exact_bytes`, the one that touches the input:

* `exact_readPool` — the pool, with all kinds of entry. Its loop over the slots looks at nothing of
  an entry but its width, and `readSlots_run_iff` says all that it does: which entries it reads for
  a number of slots (`Fills`), off which bytes, and into which slots;
* `exact_readMember`, `exact_readAttribute` — members and attributes, with the lengths that the
  input itself announces;
* `exact_read` — the whole file.

The headline is `parse_prefix_free`: no accepted file is a proper prefix of another one, a file that
is cut off is refused because the input ends, and a file that is padded is refused because it does
not.
-/

namespace ClassHost

namespace Reader

variable {α β : Type}

/-- The reader takes exactly `front` off and returns `a`, whatever follows; with less than `front`
the input ends too early. -/
structure Reads (reader : Reader α) (front : Bytes) (a : α) : Prop where
  whole : ∀ more, reader.run (front ++ more) = .ok (a, more)
  short : ∀ part, part <+: front → part ≠ front →
    ∃ fault, reader.run part = .error (.endOfInput fault)

/-- Every success is decided by the bytes that were taken off. -/
def Exact (reader : Reader α) : Prop :=
  ∀ input a rest, reader.run input = .ok (a, rest) →
    ∃ front, input = front ++ rest ∧ reader.Reads front a

-- ---------------------------------------------------------------------------
-- One run
-- ---------------------------------------------------------------------------

theorem Reads.pure (a : α) : Reads (pure a) [] a where
  whole _ := rfl
  short _ hpart hne := absurd (List.prefix_nil.mp hpart) hne

/-- A run of one reader after another takes off what both take off, in order. -/
theorem Reads.bind {reader : Reader α} {next : α → Reader β} {front behind : Bytes} {a : α} {b : β}
    (h : reader.Reads front a) (hnext : (next a).Reads behind b) :
    (reader >>= next).Reads (front ++ behind) b where
  whole more := by
    rw [List.append_assoc, StateT.run_bind, h.whole]
    exact hnext.whole more
  short part hpart hne := by
    rw [StateT.run_bind]
    -- a part that ends too early ends in the front, between the two, or in what is behind
    rcases List.prefix_or_prefix_of_prefix hpart (List.prefix_append front behind) with hin | hout
    · by_cases hall : part = front
      · -- the cut lies between the two
        subst hall
        obtain ⟨fault, hfault⟩ := hnext.short [] List.nil_prefix fun hnil =>
          hne (by rw [← hnil, List.append_nil])
        refine ⟨fault, ?_⟩
        have hpartRun := h.whole []
        rw [List.append_nil] at hpartRun
        rw [hpartRun]
        exact hfault
      · obtain ⟨fault, hfault⟩ := h.short part hin hall
        exact ⟨fault, by rw [hfault]; rfl⟩
    · obtain ⟨tail, rfl⟩ := hout
      have htail : tail <+: behind := (List.prefix_append_right_inj front).mp hpart
      obtain ⟨fault, hfault⟩ := hnext.short tail htail fun heq => hne (by rw [heq])
      refine ⟨fault, ?_⟩
      rw [h.whole]
      exact hfault

/-- What comes after a reader goes on where it stopped. -/
theorem Reads.run_bind {reader : Reader α} {front : Bytes} {a : α} (h : reader.Reads front a)
    (next : α → Reader β) (more : Bytes) :
    (reader >>= next).run (front ++ more) = (next a).run more := by
  rw [StateT.run_bind, h.whole]
  rfl

/-- A reader that went all the way has passed both of its parts. -/
theorem run_bind_ok {reader : Reader α} {next : α → Reader β} {input rest : Bytes} {b : β}
    (h : (reader >>= next).run input = .ok (b, rest)) :
    ∃ a middle, reader.run input = .ok (a, middle) ∧ (next a).run middle = .ok (b, rest) := by
  rw [StateT.run_bind] at h
  cases hfirst : reader.run input with
  | error fault =>
    rw [hfirst] at h
    exact nomatch h
  | ok result =>
    rw [hfirst] at h
    exact ⟨result.1, result.2, rfl, h⟩

/-- Making something of a result takes nothing off. -/
theorem run_map_ok {reader : Reader α} {f : α → β} {input rest : Bytes} {b : β}
    (h : (reader >>= fun a => Pure.pure (f a)).run input = .ok (b, rest)) :
    ∃ a, reader.run input = .ok (a, rest) ∧ f a = b := by
  obtain ⟨a, middle, hrun, hpure⟩ := run_bind_ok h
  obtain ⟨rfl, rfl⟩ := Prod.mk.inj (Except.ok.inj hpure)
  exact ⟨a, hrun, rfl⟩

theorem run_bytes_ok {count : Nat} {input front rest : Bytes}
    (h : (bytes count).run input = .ok (front, rest)) :
    front.length = count ∧ input = front ++ rest := by
  simp only [bytes, Bytes.split, StateT.run] at h
  split at h
  · rename_i result hsplit
    split at hsplit
    · rename_i hlength
      have hresult := (Except.ok.inj hsplit).trans (Except.ok.inj h)
      obtain ⟨rfl, rfl⟩ := Prod.mk.inj hresult
      exact ⟨hlength, (List.take_append_drop count input).symm⟩
    · exact nomatch hsplit
  · exact nomatch h

/-- A reader that finds too few bytes says how many there are. -/
theorem run_bytes_of_lt {count : Nat} {input : Bytes} (h : input.length < count) :
    (bytes count).run input = .error (.endOfInput ⟨count, input.length⟩) := by
  have htake : input.take count = input := List.take_of_length_le (by omega)
  simp only [bytes, Bytes.split, StateT.run, htake]
  rw [if_neg (by omega)]

/-- Exactly as many bytes as were asked for. -/
theorem reads_bytes (front : Bytes) : (bytes front.length).Reads front front where
  whole more := by simp [bytes, Bytes.split, StateT.run]
  short part hpart hne := by
    have hlt : part.length < front.length := by
      rcases Nat.lt_or_ge part.length front.length with hlt | hge
      · exact hlt
      · exact absurd (hpart.eq_of_length_le hge) hne
    exact ⟨⟨front.length, part.length⟩, run_bytes_of_lt hlt⟩

theorem run_bytes_of_le {count : Nat} {input : Bytes} (h : count ≤ input.length) :
    (bytes count).run input = .ok (input.take count, input.drop count) := by
  have hfront := (reads_bytes (input.take count)).whole (input.drop count)
  rwa [List.length_take_of_le h, List.take_append_drop] at hfront

-- ---------------------------------------------------------------------------
-- Putting readers together
-- ---------------------------------------------------------------------------

theorem exact_pure (a : α) : Exact (pure a : Reader α) := by
  rintro input a' rest h
  have heq : (a, input) = (a', rest) := Except.ok.inj h
  obtain ⟨rfl, rfl⟩ := Prod.mk.inj heq
  exact ⟨[], rfl, .pure a⟩

theorem exact_throw (fault : ClassFileFault) : Exact (throw fault : Reader α) := by
  intro input a rest h
  exact nomatch h

theorem Exact.bind {reader : Reader α} {next : α → Reader β} (h : reader.Exact)
    (hnext : ∀ a, (next a).Exact) : (reader >>= next).Exact := by
  intro input b rest hrun
  obtain ⟨a, middle, hfirst, hsecond⟩ := run_bind_ok hrun
  obtain ⟨front, rfl, hreads⟩ := h input a middle hfirst
  obtain ⟨behind, rfl, hreads'⟩ := hnext a middle b rest hsecond
  exact ⟨front ++ behind, (List.append_assoc ..).symm, hreads.bind hreads'⟩

/-- Nothing is read after a fault. -/
theorem exact_throw_bind (fault : ClassFileFault) (next : α → Reader β) :
    Exact (throw fault >>= next) := by
  intro input b rest h
  exact nomatch h

theorem Exact.map {reader : Reader α} (h : reader.Exact) (f : α → β) :
    Exact (reader >>= fun a => pure (f a)) :=
  h.bind fun a => exact_pure (f a)

/-- Two readers in a row whose results are put together. -/
theorem Exact.map₂ {γ : Type} {first : Reader α} {second : Reader β} (h : first.Exact)
    (h' : second.Exact) (f : α → β → γ) :
    Exact (first >>= fun a => second >>= fun b => pure (f a b)) :=
  h.bind fun a => h'.map (f a)

theorem exact_bytes (count : Nat) : (bytes count).Exact := by
  intro input front rest h
  obtain ⟨rfl, rfl⟩ := run_bytes_ok h
  exact ⟨front, rfl, reads_bytes front⟩

theorem exact_word (width : Nat) : (word width).Exact := (exact_bytes width).map _

theorem exact_u8 : u8.Exact := (exact_word 1).map _

theorem exact_u16 : u16.Exact := (exact_word 2).map _

theorem exact_u32 : u32.Exact := (exact_word 4).map _

theorem exact_u64 : u64.Exact := (exact_word 8).map _

theorem exact_lookUp (found : Except PoolFault α) : (lookUp found).Exact := by
  cases found with
  | ok a => exact exact_pure a
  | error fault => exact exact_throw _

theorem Exact.times {reader : Reader α} (h : reader.Exact) (count : Nat) (read : Array α) :
    (times reader count read).Exact := by
  induction count generalizing read with
  | zero => exact exact_pure read
  | succ count ih => exact h.bind fun a => ih (read.push a)

theorem Exact.counted {reader : Reader α} (h : reader.Exact) : (counted reader).Exact :=
  exact_u16.bind fun count => (h.times count.toNat #[]).map _

end Reader

-- ---------------------------------------------------------------------------
-- The readers of the format
-- ---------------------------------------------------------------------------

namespace ClassFile

open Reader

theorem exact_readMemberRef : readMemberRef.Exact := exact_u16.map₂ exact_u16 _

theorem exact_readDynamicRef : readDynamicRef.Exact := exact_u16.map₂ exact_u16 _

theorem exact_readText : readText.Exact := by
  refine exact_u16.bind fun length => (exact_bytes length.toNat).bind fun bytes => ?_
  cases Text.ModifiedUtf8.decode bytes with
  | ok text => exact exact_pure text
  | error fault => exact exact_throw _

theorem exact_readConstantOf (tag : ConstantTag) : (readConstantOf tag).Exact := by
  cases tag with
  | className => exact exact_u16.map _
  | field => exact exact_readMemberRef.map _
  | method => exact exact_readMemberRef.map _
  | interfaceMethod => exact exact_readMemberRef.map _
  | string => exact exact_u16.map _
  | integer => exact exact_u32.map _
  | float => exact exact_u32.map _
  | long => exact exact_u64.map _
  | double => exact exact_u64.map _
  | nameAndType => exact exact_u16.map₂ exact_u16 _
  | utf8 => exact exact_readText.map _
  | methodHandle => exact exact_u8.map₂ exact_u16 _
  | methodType => exact exact_u16.map _
  | dynamic => exact exact_readDynamicRef.map _
  | invokeDynamic => exact exact_readDynamicRef.map _
  | moduleName => exact exact_u16.map _
  | packageName => exact exact_u16.map _

theorem exact_readConstant : readConstant.Exact := by
  refine exact_u8.bind fun byte => ?_
  cases ConstantTag.ofByte? byte with
  | none => exact exact_throw _
  | some tag => exact exact_readConstantOf tag

-- ---------------------------------------------------------------------------
-- The loop over the slots
-- ---------------------------------------------------------------------------

/-- An entry with the bytes that it is read from. -/
structure PoolEntry where
  bytes : Bytes
  entry : Constant
  reads : readConstant.Reads bytes entry

/-- The slots that an entry takes. -/
def PoolEntry.slots (item : PoolEntry) : List Constant :=
  if item.entry.isWide then [item.entry, .reserved] else [item.entry]

/-- The entries that are read for a number of slots. A wide one is read also when one slot is left,
and ends the loop then. -/
inductive Fills : Nat → List PoolEntry → Prop where
  | nil : Fills 0 []
  | narrow {count : Nat} {item : PoolEntry} {items : List PoolEntry}
      (hnarrow : item.entry.isWide = false) (hrest : Fills count items) :
      Fills (count + 1) (item :: items)
  | wide {count : Nat} {item : PoolEntry} {items : List PoolEntry}
      (hwide : item.entry.isWide = true) (hrest : Fills count items) :
      Fills (count + 2) (item :: items)
  | overrun {item : PoolEntry} (hwide : item.entry.isWide = true) : Fills 1 [item]

/-- The bytes of some entries. -/
def bytesOf (items : List PoolEntry) : Bytes := items.flatMap PoolEntry.bytes

/-- The slots of some entries. -/
def slotsOf (items : List PoolEntry) : List Constant := items.flatMap PoolEntry.slots

/-- Some entries behind those of a pool. -/
def appendEntries (pool : ConstantPool) (items : List PoolEntry) : ConstantPool :=
  ⟨pool.entries ++ (slotsOf items).toArray⟩

section

variable {item : PoolEntry} {items : List PoolEntry} {pool : ConstantPool}

theorem slots_of_narrow (h : item.entry.isWide = false) : item.slots = [item.entry] := by
  rw [PoolEntry.slots, h]
  rfl

theorem slots_of_wide (h : item.entry.isWide = true) :
    item.slots = [item.entry, .reserved] := by
  rw [PoolEntry.slots, h]
  rfl

@[simp]
theorem bytesOf_nil : bytesOf [] = [] := rfl

@[simp]
theorem bytesOf_cons (item : PoolEntry) (items : List PoolEntry) :
    bytesOf (item :: items) = item.bytes ++ bytesOf items :=
  List.flatMap_cons

@[simp]
theorem bytesOf_append (front behind : List PoolEntry) :
    bytesOf (front ++ behind) = bytesOf front ++ bytesOf behind :=
  List.flatMap_append

@[simp]
theorem slotsOf_nil : slotsOf [] = [] := rfl

@[simp]
theorem slotsOf_cons (item : PoolEntry) (items : List PoolEntry) :
    slotsOf (item :: items) = item.slots ++ slotsOf items :=
  List.flatMap_cons

@[simp]
theorem slotsOf_append (front behind : List PoolEntry) :
    slotsOf (front ++ behind) = slotsOf front ++ slotsOf behind :=
  List.flatMap_append

theorem slotsOf_narrow (h : item.entry.isWide = false) :
    slotsOf (item :: items) = item.entry :: slotsOf items := by
  rw [slotsOf_cons, slots_of_narrow h, List.singleton_append]

theorem slotsOf_wide (h : item.entry.isWide = true) :
    slotsOf (item :: items) = item.entry :: .reserved :: slotsOf items := by
  rw [slotsOf_cons, slots_of_wide h]
  rfl

theorem appendEntries_nil (pool : ConstantPool) : appendEntries pool [] = pool := by
  simp [appendEntries]

theorem appendEntries_narrow (h : item.entry.isWide = false) :
    appendEntries pool (item :: items) = appendEntries (pool.push item.entry) items := by
  simp [appendEntries, slotsOf_narrow h, ConstantPool.push]

theorem appendEntries_wide (h : item.entry.isWide = true) :
    appendEntries pool (item :: items) =
      appendEntries ((pool.push item.entry).push .reserved) items := by
  simp [appendEntries, slotsOf_wide h, ConstantPool.push]

/-- The loop takes the entries off one after the other. -/
theorem Fills.reads {count : Nat} (h : Fills count items) (pool : ConstantPool) :
    (readSlots count pool).Reads (bytesOf items) (appendEntries pool items) := by
  induction h generalizing pool with
  | nil =>
    rw [appendEntries_nil]
    exact .pure pool
  | @narrow count item items hnarrow hrest ih =>
    rw [readSlots, appendEntries_narrow hnarrow]
    refine item.reads.bind ?_
    rw [if_neg (by rw [hnarrow]; decide)]
    exact ih (pool.push item.entry)
  | @wide count item items hwide hrest ih =>
    rw [readSlots, appendEntries_wide hwide]
    refine item.reads.bind ?_
    rw [if_pos hwide]
    exact ih ((pool.push item.entry).push .reserved)
  | @overrun item hwide =>
    rw [readSlots, appendEntries_wide hwide, appendEntries_nil]
    refine item.reads.bind ?_
    rw [if_pos hwide]
    exact .pure _

/-- Each turn of the loop reads one entry; the slots that are left then decide whether there is
another. -/
theorem exists_fills {count : Nat} {pool pool' : ConstantPool} {input rest : Bytes}
    (h : (readSlots count pool).run input = .ok (pool', rest)) :
    ∃ items, Fills count items ∧ input = bytesOf items ++ rest ∧
      pool' = appendEntries pool items := by
  induction count using Nat.strongRecOn generalizing pool input with
  | ind count ih =>
    -- the wide entry was the last that was promised: its second slot overruns the count
    cases count with
    | zero =>
      obtain ⟨rfl, rfl⟩ := Prod.mk.inj (Except.ok.inj h)
      exact ⟨[], .nil, rfl, (appendEntries_nil pool).symm⟩
    | succ count =>
      rw [readSlots] at h
      obtain ⟨entry, middle, hentry, hloop⟩ := run_bind_ok h
      obtain ⟨bytes, rfl, hreads⟩ := exact_readConstant input entry middle hentry
      by_cases hwide : entry.isWide = true
      · rw [if_pos hwide] at hloop
        cases count with
        | zero =>
          obtain ⟨rfl, rfl⟩ := Prod.mk.inj (Except.ok.inj hloop)
          refine ⟨[⟨bytes, entry, hreads⟩], .overrun hwide, ?_, ?_⟩
          · simp
          · rw [appendEntries_wide hwide, appendEntries_nil]
        | succ count =>
          obtain ⟨items, hfills, rfl, rfl⟩ := ih count (by omega) hloop
          refine ⟨⟨bytes, entry, hreads⟩ :: items, .wide hwide hfills, ?_, ?_⟩
          · simp
          · rw [appendEntries_wide hwide]
      · rw [if_neg hwide] at hloop
        have hnarrow : entry.isWide = false := by simpa using hwide
        obtain ⟨items, hfills, rfl, rfl⟩ := ih count (by omega) hloop
        refine ⟨⟨bytes, entry, hreads⟩ :: items, .narrow hnarrow hfills, ?_, ?_⟩
        · simp
        · rw [appendEntries_narrow hnarrow]

/-- **The loop.** It reads the entries that fill the slots, off their bytes and into their slots,
and does nothing else. -/
theorem readSlots_run_iff {count : Nat} {pool pool' : ConstantPool} {input rest : Bytes} :
    (readSlots count pool).run input = .ok (pool', rest) ↔
      ∃ items, Fills count items ∧ input = bytesOf items ++ rest ∧
        pool' = appendEntries pool items := by
  constructor
  · exact exists_fills
  · rintro ⟨items, hfills, rfl, rfl⟩
    exact (hfills.reads pool).whole rest

end

theorem exact_readSlots (count : Nat) (pool : ConstantPool) : (readSlots count pool).Exact := by
  intro input pool' rest h
  obtain ⟨items, hfills, rfl, rfl⟩ := readSlots_run_iff.mp h
  exact ⟨bytesOf items, rfl, hfills.reads pool⟩

-- ---------------------------------------------------------------------------
-- The other parts of a file
-- ---------------------------------------------------------------------------

theorem exact_readPool : readPool.Exact := by
  refine exact_u16.bind fun count => ?_
  split
  · exact exact_throw_bind _ _
  · exact exact_readSlots _ _

theorem exact_readAttribute (pool : ConstantPool) : (readAttribute pool).Exact :=
  exact_u16.bind fun _ => (exact_lookUp _).bind fun _ => exact_u32.bind fun length =>
    (exact_bytes length.toNat).map _

theorem exact_readMember (pool : ConstantPool) (known : AccessFlags) :
    (readMember pool known).Exact :=
  exact_u16.bind fun _ => exact_u16.bind fun _ => (exact_lookUp _).bind fun _ =>
    exact_u16.bind fun _ => (exact_lookUp _).bind fun _ => (exact_readAttribute pool).counted.map _

theorem exact_readSuperClass (pool : ConstantPool) : (readSuperClass pool).Exact := by
  refine exact_u16.bind fun index => ?_
  split
  · exact exact_pure none
  · exact (exact_lookUp _).map _

theorem exact_readClassName (pool : ConstantPool) :
    Exact (do lookUp (pool.className (← u16))) :=
  exact_u16.bind fun _ => exact_lookUp _

theorem exact_read : read.Exact := by
  refine exact_u32.bind fun found => ?_
  split
  · exact exact_throw_bind _ _
  · refine exact_u16.bind fun minorVersion => exact_u16.bind fun majorVersion => ?_
    refine exact_readPool.bind fun pool => (exact_lookUp pool.check).bind fun _ => ?_
    refine exact_u16.bind fun flags => exact_u16.bind fun index => ?_
    refine (exact_lookUp (pool.className index)).bind fun thisClass => ?_
    refine (exact_readSuperClass pool).bind fun superClass => ?_
    refine (exact_readClassName pool).counted.bind fun interfaces => ?_
    refine (exact_readMember pool .knownOfField).counted.bind fun fields => ?_
    refine (exact_readMember pool .knownOfMethod).counted.bind fun methods => ?_
    exact (exact_readAttribute pool).counted.map _

-- ---------------------------------------------------------------------------
-- Whole files
-- ---------------------------------------------------------------------------

/-- A file is accepted exactly if reading it leaves nothing. -/
theorem parse_eq_ok_iff {input : Bytes} {file : ClassFile} :
    parse input = .ok file ↔ read.run input = .ok (file, []) := by
  unfold parse
  split
  · rename_i fault hread
    rw [hread]
    exact ⟨nofun, nofun⟩
  · rename_i found hread
    rw [hread]
    simp
  · rename_i hread
    rw [hread]
    simp

/-- Reading an accepted file takes all of it off. -/
theorem reads_of_parse {input : Bytes} {file : ClassFile} (h : parse input = .ok file) :
    read.Reads input file := by
  obtain ⟨front, hfront, hreads⟩ := exact_read input file [] (parse_eq_ok_iff.mp h)
  rw [List.append_nil] at hfront
  exact hfront ▸ hreads

/-- **Accepted files are self-delimiting.** A proper prefix of an accepted file is refused because
the input ends too early, and an accepted file with anything behind it is refused because of the
extra bytes. So no accepted file is a prefix of another. -/
theorem parse_prefix_free {input : Bytes} {file : ClassFile} (h : parse input = .ok file) :
    (∀ front, front <+: input → front ≠ input →
      ∃ fault, parse front = .error (.endOfInput fault)) ∧
    (∀ more, more ≠ [] → parse (input ++ more) = .error .trailingBytes) := by
  have hreads := reads_of_parse h
  constructor
  · intro front hfront hne
    obtain ⟨fault, hfault⟩ := hreads.short front hfront hne
    exact ⟨fault, by rw [parse, hfault]⟩
  · intro more hmore
    rw [parse, hreads.whole]
    cases more with
    | nil => exact absurd rfl hmore
    | cons byte more => rfl

/-- A class `A` with a long constant and one attribute. -/
def sampleFile : Bytes :=
  [0xCA, 0xFE, 0xBA, 0xBE, 0, 0, 0, 52, 0, 5, 7, 0, 2, 1, 0, 1, 65, 5, 0, 0, 0, 0, 0, 0, 0, 9,
    0, 1, 0, 1, 0, 0, 0, 0, 0, 0, 0, 0, 0, 1, 0, 2, 0, 0, 0, 1, 42]

/-- The file is accepted, and neither cut nor padded. -/
theorem sampleFile_self_delimiting :
    (∃ file, parse sampleFile = .ok file) ∧
    (∀ front, front <+: sampleFile → front ≠ sampleFile →
      ∃ fault, parse front = .error (.endOfInput fault)) ∧
    (∀ more, more ≠ [] → parse (sampleFile ++ more) = .error .trailingBytes) := by
  have h : parse sampleFile = .ok ⟨0, 52, ⟨#[.className 2, .utf8 "A", .long 9, .reserved]⟩, 1,
      "A", none, [], [], [], [⟨"A", [42]⟩]⟩ := by rfl
  exact ⟨⟨_, h⟩, parse_prefix_free h⟩

end ClassFile

end ClassHost
