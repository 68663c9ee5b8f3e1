import ClassHost.Proofs.ClassFile.Extent
import ClassHost.Proofs.ClassFile.Layout
import ClassHost.Proofs.Text.ModifiedUtf8

/-!
# Reading written files

`parse_bytes` is the result: a well-formed file, written as bytes and parsed, gives the class file
that it describes.

The proof has two halves. Well-formed files describe something (`exists_resolves`): every index can
be followed. And whatever they describe is what the readers return on their bytes (`reads_bytes`),
from `Reads`, one lemma for each part of the layout. The lemmas compose as the layout does; where a
reader looks an index up, it takes no bytes off.
-/

namespace ClassHost

-- ---------------------------------------------------------------------------
-- Numbers
-- ---------------------------------------------------------------------------

namespace Bytes

theorem length_bigEndian (width n : Nat) : (bigEndian width n).length = width := by
  induction width generalizing n with
  | zero => rfl
  | succ width ih => rw [bigEndian, List.length_append, ih, List.length_singleton]

theorem toNat_append_singleton (bytes : Bytes) (b : UInt8) :
    toNat (bytes ++ [b]) = toNat bytes * 256 + b.toNat := by
  rw [toNat, List.foldl_append]
  rfl

/-- Big-endian bytes say the number, if there are enough of them. -/
theorem toNat_bigEndian {width n : Nat} (h : n < 256 ^ width) :
    toNat (bigEndian width n) = n := by
  induction width generalizing n with
  | zero =>
    have hzero : n = 0 := Nat.lt_one_iff.mp h
    rw [hzero]
    rfl
  | succ width ih =>
    have hfront : n / 256 < 256 ^ width := by
      rw [Nat.div_lt_iff_lt_mul (by decide), ← Nat.pow_succ]
      exact h
    have hlast : n.toUInt8.toNat = n % 256 := rfl
    rw [bigEndian, toNat_append_singleton, ih hfront, hlast]
    exact Nat.div_add_mod' n 256

end Bytes

namespace Reader

variable {α β γ : Type}

-- ---------------------------------------------------------------------------
-- Runs on written parts
-- ---------------------------------------------------------------------------

theorem reads_map {reader : Reader α} {front : Bytes} {a : α} (h : reader.Reads front a)
    (f : α → β) : Reads (reader >>= fun a => pure (f a)) front (f a) := by
  rw [← List.append_nil front]
  exact h.bind (Reads.pure (f a))

/-- Two readers in a row whose results are put together. -/
theorem reads_map₂ {first : Reader α} {second : Reader β} {front behind : Bytes} {a : α} {b : β}
    (h : first.Reads front a) (h' : second.Reads behind b) (f : α → β → γ) :
    Reads (first >>= fun a => second >>= fun b => pure (f a b)) (front ++ behind) (f a b) :=
  h.bind (reads_map h' (f a))

theorem reads_word (width : Nat) {n : Nat} (h : n < 256 ^ width) :
    (word width).Reads (Bytes.bigEndian width n) n := by
  have hread := reads_map (reads_bytes (Bytes.bigEndian width n)) Bytes.toNat
  rwa [Bytes.length_bigEndian, Bytes.toNat_bigEndian h] at hread

theorem reads_u8 (n : UInt8) : u8.Reads (Layout.u1 n) n := by
  have hread := reads_map (reads_word 1 n.toNat_lt) Nat.toUInt8
  rwa [Nat.toUInt8_eq, UInt8.ofNat_toNat] at hread

theorem reads_u16 (n : UInt16) : u16.Reads (Layout.u2 n) n := by
  have hread := reads_map (reads_word 2 n.toNat_lt) Nat.toUInt16
  rwa [Nat.toUInt16_eq, UInt16.ofNat_toNat] at hread

theorem reads_u32 (n : UInt32) : u32.Reads (Layout.u4 n) n := by
  have hread := reads_map (reads_word 4 n.toNat_lt) Nat.toUInt32
  rwa [Nat.toUInt32_eq, UInt32.ofNat_toNat] at hread

theorem reads_u64 (n : UInt64) : u64.Reads (Layout.u8 n) n := by
  have hread := reads_map (reads_word 8 n.toNat_lt) Nat.toUInt64
  rwa [Nat.toUInt64_eq, UInt64.ofNat_toNat] at hread

/-- A count of two bytes. -/
theorem reads_count {n : Nat} (h : n < 2 ^ 16) :
    ∃ count : UInt16, count.toNat = n ∧ u16.Reads (Bytes.bigEndian 2 n) count := by
  have hcount : n.toUInt16.toNat = n := UInt16.toNat_ofNat_of_lt' h
  have hread := reads_u16 n.toUInt16
  rw [Layout.u2, hcount] at hread
  exact ⟨n.toUInt16, hcount, hread⟩

/-- A length of four bytes. -/
theorem reads_length {n : Nat} (h : n < 2 ^ 32) :
    ∃ length : UInt32, length.toNat = n ∧ u32.Reads (Bytes.bigEndian 4 n) length := by
  have hlength : n.toUInt32.toNat = n := UInt32.toNat_ofNat_of_lt' h
  have hread := reads_u32 n.toUInt32
  rw [Layout.u4, hlength] at hread
  exact ⟨n.toUInt32, hlength, hread⟩

/-- A byte string is read once its length has been, whatever type the length has. -/
theorem reads_measured {width : Nat} {length : Reader α} {size : α → Nat} {n : α} {data : Bytes}
    {next : Bytes → Reader β} {b : β}
    (hlength : length.Reads (Bytes.bigEndian width data.length) n) (hsize : size n = data.length)
    (hnext : (next data).Reads [] b) :
    (length >>= fun n => bytes (size n) >>= next).Reads (Layout.measured width data) b := by
  have hdata := (reads_bytes data).bind hnext
  rw [List.append_nil, ← hsize] at hdata
  exact hlength.bind hdata

/-- Parts that are read one by one are read in a loop, behind what was read before. -/
theorem reads_times {reader : Reader β} {part : α → Bytes} {parts : List α} {found : List β}
    (h : List.Forall₂ (fun p a => reader.Reads (part p) a) parts found) (read : Array β) :
    (times reader parts.length read).Reads (parts.flatMap part) (read ++ found.toArray) := by
  induction h generalizing read with
  | nil =>
    rw [Array.append_empty]
    exact Reads.pure read
  | @cons p a parts found hfirst hrest ih =>
    have hpush : read ++ (a :: found).toArray = read.push a ++ found.toArray := by simp
    rw [hpush, List.flatMap_cons]
    exact hfirst.bind (ih (read.push a))

/-- A table is read if its parts are, each as something related to it. -/
theorem reads_table {reader : Reader β} {part : α → Bytes} {good : α → Prop}
    {related : α → β → Prop} {parts : List α} {found : List β}
    (hpart : ∀ p a, good p → related p a → reader.Reads (part p) a)
    (hgood : Layout.Listed good parts) (hfound : List.Forall₂ related parts found) :
    (counted reader).Reads (Layout.table part parts) found := by
  obtain ⟨count, hlength, hread⟩ := reads_count hgood.count
  have hparts : List.Forall₂ (fun p a => reader.Reads (part p) a) parts found :=
    ((List.forall₂_and_left _ _).mpr ⟨hgood.good, hfound⟩).imp fun p a h => hpart p a h.1 h.2
  have hloop := reads_times hparts #[]
  rw [Array.empty_append, ← hlength] at hloop
  exact hread.bind (reads_map hloop Array.toList)

/-- Looking an index up takes nothing off. -/
theorem reads_lookUp_bind {found : Except PoolFault α} {a : α} {next : α → Reader β}
    {front : Bytes} {b : β} (h : found = .ok a) (hnext : (next a).Reads front b) :
    (lookUp found >>= next).Reads front b := by
  rw [← List.nil_append front, h]
  exact (Reads.pure a).bind hnext

end Reader

-- ---------------------------------------------------------------------------
-- Pools
-- ---------------------------------------------------------------------------

namespace ConstantPool

variable {pool : ConstantPool} {index : UInt16} {entry : Constant}

theorem mem_of_get (h : pool.get index = .ok entry) : entry ∈ pool.entries := by
  unfold get at h
  split at h
  · exact nomatch h
  · split at h
    · rename_i hget
      obtain rfl := Except.ok.inj h
      exact Array.mem_of_getElem? hget
    · exact nomatch h

theorem checkEntry_of_forM (entries : List Constant) (h : entries.forM pool.checkEntry = .ok ())
    (hmem : entry ∈ entries) : pool.checkEntry entry = .ok () := by
  induction entries with
  | nil => exact nomatch hmem
  | cons first entries ih =>
    rw [List.forM_eq_forM, List.forM_cons] at h
    cases hfirst : pool.checkEntry first with
    | error fault =>
      rw [hfirst] at h
      exact nomatch h
    | ok done =>
      rw [hfirst] at h
      rcases List.mem_cons.mp hmem with rfl | hmem
      · exact hfirst
      · exact ih h hmem

/-- A pool that passes its checks has no entry that does not. -/
theorem checkEntry_of_check (h : pool.check = .ok ()) (hmem : entry ∈ pool.entries) :
    pool.checkEntry entry = .ok () :=
  checkEntry_of_forM pool.entries.toList h (Array.mem_toList_iff.mpr hmem)

theorem IsUtf8.exists_utf8 (h : pool.IsUtf8 index) : ∃ text, pool.utf8 index = .ok text := by
  obtain ⟨text, hget⟩ := h
  refine ⟨text, ?_⟩
  rw [utf8, hget]
  rfl

/-- A class entry of a pool that passes its checks leads on to a name. -/
theorem IsClass.exists_className (hcheck : pool.check = .ok ()) (h : pool.IsClass index) :
    ∃ name, pool.className index = .ok name := by
  obtain ⟨name, hget⟩ := h
  have hentry := checkEntry_of_check hcheck (mem_of_get hget)
  cases hutf8 : pool.utf8 name with
  | error fault =>
    rw [checkEntry, hutf8] at hentry
    exact nomatch hentry
  | ok text =>
    refine ⟨text, ?_⟩
    rw [className, hget]
    exact hutf8

end ConstantPool

namespace Layout

/-- The slots of a pool, one entry after the other. -/
inductive Entries : List Constant → Prop where
  | nil : Entries []
  | narrow {entry : Constant} {rest : List Constant} (hheld : entry ≠ .reserved)
      (hnarrow : entry.isWide = false) (hrest : Entries rest) : Entries (entry :: rest)
  | wide {entry : Constant} {rest : List Constant} (hwide : entry.isWide = true)
      (hrest : Entries rest) : Entries (entry :: .reserved :: rest)

/-- Slots that are laid out right from their first one on can be taken entry by entry. -/
theorem entries_of_spaced (slots : List Constant) (hfirst : slots[0]? ≠ some .reserved)
    (hafter : ∀ i (hi : i < slots.length),
      slots[i + 1]? = some .reserved ↔ slots[i].isWide = true) : Entries slots := by
  -- two slots are looked at at a time: a wide entry takes the second one with it
  match slots with
  | [] => exact .nil
  | [entry] =>
    have hnarrow : entry.isWide = false := by simpa using hafter 0 (by simp)
    exact .narrow (by simpa using hfirst) hnarrow .nil
  | entry :: second :: rest =>
    have hheld : entry ≠ .reserved := by simpa using hfirst
    have hsecond : some second = some .reserved ↔ entry.isWide = true := hafter 0 (by simp)
    by_cases hwide : entry.isWide = true
    · obtain rfl : second = .reserved := Option.some.inj (hsecond.mpr hwide)
      -- what holds nothing is not wide, so the third slot starts the next entry
      have hthird : rest[0]? ≠ some .reserved := fun hreserved =>
        nomatch (hafter 1 (by simp)).mp hreserved
      exact .wide hwide (entries_of_spaced rest hthird fun i hi =>
        hafter (i + 2) (by simpa using hi))
    · exact .narrow hheld (by simpa using hwide) (entries_of_spaced (second :: rest)
        (fun hreserved => hwide (hsecond.mp hreserved)) fun i hi =>
          hafter (i + 1) (by simpa using hi))

-- ---------------------------------------------------------------------------
-- Following indices
-- ---------------------------------------------------------------------------

/-- Parts that are each related to something are related to a list. -/
theorem exists_forall₂ {α β : Type} {good : α → Prop} {related : α → β → Prop} {parts : List α}
    (h : ∀ p ∈ parts, good p) (hpart : ∀ p, good p → ∃ a, related p a) :
    ∃ found, List.Forall₂ related parts found := by
  induction parts with
  | nil => exact ⟨[], .nil⟩
  | cons p parts ih =>
    obtain ⟨a, ha⟩ := hpart p (h p (.head _))
    obtain ⟨found, hfound⟩ := ih fun q hq => h q (.tail _ hq)
    exact ⟨a :: found, .cons ha hfound⟩

theorem Attribute.WellFormed.exists_resolves {pool : ConstantPool} (a : Layout.Attribute)
    (h : a.WellFormed pool) : ∃ found, a.Resolves pool found := by
  obtain ⟨name, hname⟩ := h.name.exists_utf8
  exact ⟨⟨name, a.data⟩, hname, rfl⟩

theorem Member.WellFormed.exists_resolves {pool : ConstantPool} (known : AccessFlags)
    (m : Layout.Member) (h : m.WellFormed pool) : ∃ found, m.Resolves pool known found := by
  obtain ⟨name, hname⟩ := h.name.exists_utf8
  obtain ⟨descriptor, hdescriptor⟩ := h.descriptor.exists_utf8
  obtain ⟨attributes, hattributes⟩ :=
    exists_forall₂ h.attributes.good Attribute.WellFormed.exists_resolves
  exact ⟨⟨m.flags &&& known, name, descriptor, attributes⟩, rfl, hname, hdescriptor, hattributes⟩

theorem exists_resolvesSuper {pool : ConstantPool} {index : UInt16} (hcheck : pool.check = .ok ())
    (h : index ≠ 0 → pool.IsClass index) : ∃ found, ResolvesSuper pool index found := by
  by_cases hzero : index = 0
  · exact ⟨none, hzero⟩
  · obtain ⟨name, hname⟩ := (h hzero).exists_className hcheck
    exact ⟨some name, hzero, hname⟩

/-- Every well-formed file describes a class file. -/
theorem File.WellFormed.exists_resolves {file : File} (h : file.WellFormed) :
    ∃ found, file.Resolves found := by
  obtain ⟨thisClass, hthis⟩ := h.thisClass.exists_className h.checked
  obtain ⟨superClass, hsuper⟩ := exists_resolvesSuper h.checked h.superClass
  obtain ⟨interfaces, hinterfaces⟩ :=
    exists_forall₂ h.interfaces.good fun _ hindex => hindex.exists_className h.checked
  obtain ⟨fields, hfields⟩ :=
    exists_forall₂ h.fields.good (Member.WellFormed.exists_resolves .knownOfField)
  obtain ⟨methods, hmethods⟩ :=
    exists_forall₂ h.methods.good (Member.WellFormed.exists_resolves .knownOfMethod)
  obtain ⟨attributes, hattributes⟩ :=
    exists_forall₂ h.attributes.good Attribute.WellFormed.exists_resolves
  exact ⟨⟨file.minorVersion, file.majorVersion, file.pool, file.flags &&& .knownOfClass, thisClass,
    superClass, interfaces, fields, methods, attributes⟩, rfl, rfl, rfl, rfl, hthis, hsuper,
    hinterfaces, hfields, hmethods, hattributes⟩

end Layout

-- ---------------------------------------------------------------------------
-- The parts of a file
-- ---------------------------------------------------------------------------

namespace ClassFile

open Reader

theorem reads_readText {text : String} (h : (Text.ModifiedUtf8.encode text).length < 2 ^ 16) :
    readText.Reads (Layout.measured 2 (Text.ModifiedUtf8.encode text)) text := by
  obtain ⟨count, hcount, hread⟩ := reads_count h
  refine reads_measured hread hcount ?_
  rw [Text.ModifiedUtf8.decode_encode]
  exact .pure text

/-- An entry is read by its tag. -/
theorem reads_tagged {byte : UInt8} {tag : ConstantTag} {front : Bytes} {entry : Constant}
    (htag : ConstantTag.ofByte? byte = some tag) (h : (readConstantOf tag).Reads front entry) :
    readConstant.Reads (Layout.u1 byte ++ front) entry := by
  refine (Reader.reads_u8 byte).bind ?_
  rw [htag]
  exact h

/-- Every kind of entry is read as what it is. -/
theorem reads_readConstant {entry : Constant} (hheld : entry ≠ .reserved)
    (htext : ∀ text, entry = .utf8 text → (Text.ModifiedUtf8.encode text).length < 2 ^ 16) :
    readConstant.Reads (Layout.constant entry) entry := by
  cases entry with
  | className name => exact reads_tagged rfl (reads_map (reads_u16 name) _)
  | field member =>
    exact reads_tagged rfl (reads_map (reads_map₂ (reads_u16 _) (reads_u16 _) _) _)
  | method member =>
    exact reads_tagged rfl (reads_map (reads_map₂ (reads_u16 _) (reads_u16 _) _) _)
  | interfaceMethod member =>
    exact reads_tagged rfl (reads_map (reads_map₂ (reads_u16 _) (reads_u16 _) _) _)
  | string text => exact reads_tagged rfl (reads_map (reads_u16 text) _)
  | integer value => exact reads_tagged rfl (reads_map (reads_u32 value.toUInt32) _)
  | float bits => exact reads_tagged rfl (reads_map (reads_u32 bits) _)
  | long value => exact reads_tagged rfl (reads_map (reads_u64 value.toUInt64) _)
  | double bits => exact reads_tagged rfl (reads_map (reads_u64 bits) _)
  | nameAndType pair => exact reads_tagged rfl (reads_map₂ (reads_u16 _) (reads_u16 _) _)
  | utf8 text => exact reads_tagged rfl (reads_map (reads_readText (htext text rfl)) _)
  | methodHandle kind target =>
    exact reads_tagged rfl (reads_map₂ (Reader.reads_u8 kind) (reads_u16 target) _)
  | methodType descriptor => exact reads_tagged rfl (reads_map (reads_u16 descriptor) _)
  | dynamic site =>
    exact reads_tagged rfl (reads_map (reads_map₂ (reads_u16 _) (reads_u16 _) _) _)
  | invokeDynamic site =>
    exact reads_tagged rfl (reads_map (reads_map₂ (reads_u16 _) (reads_u16 _) _) _)
  | moduleName name => exact reads_tagged rfl (reads_map (reads_u16 name) _)
  | packageName name => exact reads_tagged rfl (reads_map (reads_u16 name) _)
  | reserved => exact absurd rfl hheld

/-- Slots that are laid out right are those of entries, each on the bytes that it is written as. -/
theorem exists_items {slots : List Constant} (h : Layout.Entries slots)
    (htexts : ∀ text, .utf8 text ∈ slots → (Text.ModifiedUtf8.encode text).length < 2 ^ 16) :
    ∃ items, Fills slots.length items ∧ bytesOf items = slots.flatMap Layout.constant ∧
      slotsOf items = slots := by
  -- each entry becomes an item of its own bytes; the slot behind a wide entry has none
  induction h with
  | nil => exact ⟨[], .nil, rfl, rfl⟩
  | @narrow entry rest hheld hnarrow hrest ih =>
    have hentry : readConstant.Reads (Layout.constant entry) entry :=
      reads_readConstant hheld fun text htext => htexts text (by rw [htext]; exact .head _)
    obtain ⟨items, hfills, hbytes, hslots⟩ := ih fun text htext => htexts text (.tail _ htext)
    refine ⟨⟨_, entry, hentry⟩ :: items, .narrow hnarrow hfills, ?_, ?_⟩
    · rw [bytesOf_cons, List.flatMap_cons, hbytes]
    · rw [slotsOf_narrow hnarrow, hslots]
  | @wide entry rest hwide hrest ih =>
    have hheld : entry ≠ .reserved := by
      rintro rfl
      simp [Constant.isWide] at hwide
    have hentry : readConstant.Reads (Layout.constant entry) entry :=
      reads_readConstant hheld fun text htext => htexts text (by rw [htext]; exact .head _)
    obtain ⟨items, hfills, hbytes, hslots⟩ :=
      ih fun text htext => htexts text (.tail _ (.tail _ htext))
    refine ⟨⟨_, entry, hentry⟩ :: items, .wide hwide hfills, ?_, ?_⟩
    · rw [bytesOf_cons, List.flatMap_cons, List.flatMap_cons, hbytes]
      rfl
    · rw [slotsOf_wide hwide, hslots]

/-- A pool is read from its count and the entries that fill its slots. -/
theorem Fills.reads_readPool {count : UInt16} {items : List PoolEntry} (hcount : count ≠ 0)
    (hfills : Fills (count.toNat - 1) items) :
    readPool.Reads (Layout.u2 count ++ bytesOf items) (appendEntries .empty items) := by
  refine (reads_u16 count).bind ?_
  rw [if_neg hcount]
  exact hfills.reads .empty

theorem reads_readPool {pool : ConstantPool} (hslots : pool.size ≤ 65534) (hspaced : pool.Spaced)
    (htexts : ∀ text, .utf8 text ∈ pool.entries →
      (Text.ModifiedUtf8.encode text).length < 2 ^ 16) :
    readPool.Reads (Layout.constantPool pool) pool := by
  have hentries : Layout.Entries pool.entries.toList :=
    Layout.entries_of_spaced _ (by simpa using hspaced.first)
      fun i hi => by simpa using hspaced.after i (by simpa using hi)
  obtain ⟨items, hfills, hbytes, hitems⟩ := exists_items hentries
    fun text htext => htexts text (Array.mem_toList_iff.mp htext)
  -- the declared count is one more than the slots, and still fits 16 bits
  have hcount : (pool.size + 1).toUInt16.toNat = pool.size + 1 :=
    UInt16.toNat_ofNat_of_lt' (show pool.size + 1 < 65536 by omega)
  have hpositive : (pool.size + 1).toUInt16 ≠ 0 := by
    intro hzero
    rw [hzero] at hcount
    exact nomatch hcount
  have hwhole : appendEntries .empty items = pool := by
    simp [appendEntries, ConstantPool.empty, hitems]
  have hread := Fills.reads_readPool hpositive (by rw [hcount]; exact hfills)
  rwa [hbytes, hwhole, Layout.u2, hcount] at hread

theorem reads_readAttribute {pool : ConstantPool} (a : Layout.Attribute) (found : Attribute)
    (hgood : a.WellFormed pool) (h : a.Resolves pool found) :
    (readAttribute pool).Reads a.bytes found := by
  obtain ⟨name, data⟩ := found
  obtain rfl : data = a.data := h.data
  obtain ⟨length, hlength, hread⟩ := reads_length hgood.length
  refine (reads_u16 a.name).bind ?_
  refine reads_lookUp_bind h.name ?_
  exact reads_measured hread hlength (.pure _)

theorem reads_readMember {pool : ConstantPool} {known : AccessFlags} (m : Layout.Member)
    (found : Member) (hgood : m.WellFormed pool) (h : m.Resolves pool known found) :
    (readMember pool known).Reads m.bytes found := by
  obtain ⟨flags, name, descriptor, attributes⟩ := found
  obtain rfl : flags = m.flags &&& known := h.flags
  rw [Layout.Member.bytes]
  simp only [List.flatten_cons, List.flatten_nil]
  refine (reads_u16 m.flags).bind ?_
  refine (reads_u16 m.name).bind ?_
  refine reads_lookUp_bind h.name ?_
  refine (reads_u16 m.descriptor).bind ?_
  refine reads_lookUp_bind h.descriptor ?_
  exact (reads_table reads_readAttribute hgood.attributes h.attributes).bind (.pure _)

theorem reads_readSuperClass {pool : ConstantPool} {index : UInt16} {found : Option String}
    (h : Layout.ResolvesSuper pool index found) :
    (readSuperClass pool).Reads (Layout.u2 index) found := by
  rw [← List.append_nil (Layout.u2 index)]
  refine (reads_u16 index).bind ?_
  cases found with
  | none =>
    obtain rfl : index = 0 := h
    exact .pure none
  | some name =>
    rw [if_neg h.1]
    exact reads_lookUp_bind h.2 (.pure (some name))

theorem reads_readClassName {pool : ConstantPool} (index : UInt16) (name : String)
    (h : pool.className index = .ok name) :
    Reader.Reads (do lookUp (pool.className (← u16))) (Layout.u2 index) name := by
  rw [← List.append_nil (Layout.u2 index)]
  refine (reads_u16 index).bind ?_
  rw [h]
  exact .pure name

/-- A well-formed file is read as what it describes. -/
theorem reads_read {file : Layout.File} {found : ClassFile} (hgood : file.WellFormed)
    (h : file.Resolves found) : read.Reads file.bytes found := by
  obtain ⟨minorVersion, majorVersion, pool, flags, thisClass, superClass, interfaces, fields,
    methods, attributes⟩ := found
  obtain rfl : minorVersion = file.minorVersion := h.minorVersion
  obtain rfl : majorVersion = file.majorVersion := h.majorVersion
  obtain rfl : pool = file.pool := h.pool
  obtain rfl : flags = file.flags &&& .knownOfClass := h.flags
  rw [Layout.File.bytes]
  simp only [List.flatten_cons, List.flatten_nil]
  have hinterface : ∀ index name, file.pool.IsClass index → file.pool.className index = .ok name →
      Reader.Reads (do lookUp (file.pool.className (← u16))) (Layout.u2 index) name :=
    fun index name _ => reads_readClassName index name
  -- from here on the parts of the file, in the order they are written
  refine (reads_u32 magic).bind ?_
  rw [if_neg (fun hne => hne rfl)]
  refine (reads_u16 file.minorVersion).bind ?_
  refine (reads_u16 file.majorVersion).bind ?_
  refine (reads_readPool hgood.slots hgood.spaced hgood.texts).bind ?_
  refine reads_lookUp_bind hgood.checked ?_
  refine (reads_u16 file.flags).bind ?_
  refine (reads_u16 file.thisClass).bind ?_
  refine reads_lookUp_bind h.thisClass ?_
  refine (reads_readSuperClass h.superClass).bind ?_
  refine (reads_table hinterface hgood.interfaces h.interfaces).bind ?_
  refine (reads_table reads_readMember hgood.fields h.fields).bind ?_
  refine (reads_table reads_readMember hgood.methods h.methods).bind ?_
  exact (reads_table reads_readAttribute hgood.attributes h.attributes).bind (.pure _)

/-- **Parsing undoes writing.** A well-formed file, written as bytes, is parsed to the class file
that it describes: the same pool slot by slot, everything else in the same order under the names
that its indices stand for, with the same bytes in its attributes, and of its flags only the unknown
ones missing. -/
theorem parse_bytes {file : Layout.File} (h : file.WellFormed) :
    ∃ found, parse file.bytes = .ok found ∧ file.Resolves found := by
  obtain ⟨found, hfound⟩ := h.exists_resolves
  have hread := (reads_read h hfound).whole []
  rw [List.append_nil] at hread
  exact ⟨found, parse_eq_ok_iff.mpr hread, hfound⟩

/-- An interface `A` with numbers of two slots, a name with a zero and a supplementary character,
references forwards and backwards, and flags that mean nothing. -/
def sampleLayout : Layout.File where
  minorVersion := 0
  majorVersion := 52
  pool := ⟨#[.className 2, .utf8 "A", .className 4, .utf8 "java/lang/Object", .long (-1), .reserved,
    .double 0x7FF8000000000000, .reserved, .nameAndType ⟨10, 11⟩, .utf8 "\x00😀", .utf8 "I",
    .methodHandle 1 12, .field ⟨1, 9⟩]⟩
  flags := 0xFFFF
  thisClass := 1
  superClass := 3
  interfaces := [3, 1]
  fields := [⟨0xFFFF, 10, 11, [⟨2, [1, 2]⟩]⟩]
  methods := []
  attributes := [⟨11, []⟩]

/-- The file is parsed, with its names looked up and the flags that mean nothing gone. -/
theorem sampleLayout_parsed :
    sampleLayout.WellFormed ∧
    ∃ found, parse sampleLayout.bytes = .ok found ∧ sampleLayout.Resolves found ∧
      found.interfaces = ["java/lang/Object", "A"] ∧
      found.fields = [⟨0x50DF, "\x00😀", "I", [⟨"A", [1, 2]⟩]⟩] := by
  have htexts : ∀ text, .utf8 text ∈ sampleLayout.pool.entries →
      (Text.ModifiedUtf8.encode text).length < 2 ^ 16 := by
    intro text htext
    simp only [sampleLayout, List.mem_toArray, List.mem_cons, List.not_mem_nil, Constant.utf8.injEq,
      reduceCtorEq, false_or, or_false] at htext
    rcases htext with rfl | rfl | rfl | rfl <;> decide +kernel
  have hfields : Layout.Listed (Layout.Member.WellFormed sampleLayout.pool) sampleLayout.fields :=
    ⟨by decide, List.forall_mem_singleton.mpr ⟨⟨_, rfl⟩, ⟨_, rfl⟩, by decide,
      List.forall_mem_singleton.mpr ⟨⟨_, rfl⟩, by decide⟩⟩⟩
  have hgood : sampleLayout.WellFormed :=
    { slots := by decide
      spaced := ⟨by decide +kernel, by decide +kernel⟩
      texts := htexts
      checked := by rfl
      thisClass := ⟨_, rfl⟩
      superClass := fun _ => ⟨_, rfl⟩
      interfaces := ⟨by decide, List.forall_mem_cons.mpr
        ⟨⟨_, rfl⟩, List.forall_mem_singleton.mpr ⟨_, rfl⟩⟩⟩
      fields := hfields
      methods := ⟨by decide, fun _ => nofun⟩
      attributes := ⟨by decide, List.forall_mem_singleton.mpr ⟨⟨_, rfl⟩, by decide⟩⟩ }
  obtain ⟨found, hparse, hfound⟩ := parse_bytes hgood
  have hresult :
      (parse sampleLayout.bytes).toOption.map (fun file => (file.interfaces, file.fields)) =
      some (["java/lang/Object", "A"], [⟨0x50DF, "\x00😀", "I", [⟨"A", [1, 2]⟩]⟩]) := by
    decide +kernel
  rw [hparse] at hresult
  obtain ⟨hinterfaces, hfields⟩ := Prod.mk.inj (Option.some.inj hresult)
  exact ⟨hgood, found, hparse, hfound, hinterfaces, hfields⟩

end ClassFile

end ClassHost
