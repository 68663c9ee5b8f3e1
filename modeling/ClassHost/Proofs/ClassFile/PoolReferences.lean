import ClassHost.Proofs.ClassFile.FileParts
import Mathlib.Logic.Relation

/-!
# References inside a pool

The entries of a pool refer to each other by index, and an index in a class file may point anywhere:
ahead, back, at its own slot, at a slot that holds nothing, or past the end. The check looks at each
entry once and follows a name and descriptor no further than to the pair itself. That is enough,
because the pair is an entry of the same pool and is checked in its own turn.

* `ConstantPool.Resolves` says of an entry that its references lead where they should, all the way
  down to texts.
* `ConstantPool.check_eq_ok_iff`: the check accepts exactly the pools all of whose entries resolve.
* `ConstantPool.Reaches` is what following references can lead to, in any number of steps.
* `ClassFile.parse_resolves` is the result for whole files: in an accepted file no chain of lookups
  that starts from an entry of its pool fails.
-/

namespace ClassHost

-- ---------------------------------------------------------------------------
-- Where references lead
-- ---------------------------------------------------------------------------

/-- The slots that an entry refers to. The bootstrap method of a computed constant is not in the
pool. -/
def Constant.references : Constant → List UInt16
  | .className index | .moduleName index | .packageName index | .string index
  | .methodType index => [index]
  | .field member | .method member | .interfaceMethod member =>
    [member.className, member.nameAndType]
  | .nameAndType pair => [pair.name, pair.descriptor]
  | .dynamic site | .invokeDynamic site => [site.nameAndType]
  | .methodHandle _ target => [target]
  | .integer _ | .float _ | .long _ | .double _ | .utf8 _ | .reserved => []

namespace ConstantPool

/-- The index leads to a name and descriptor, and these lead to texts. -/
def NamesMember (pool : ConstantPool) (index : UInt16) : Prop :=
  ∃ pair, pool.nameAndType index = .ok pair ∧ pool.IsUtf8 pair.name ∧ pool.IsUtf8 pair.descriptor

/-- What an entry refers to is of the right kind, and so is what that refers to in its turn. -/
def Resolves (pool : ConstantPool) : Constant → Prop
  | .className index | .moduleName index | .packageName index | .string index
  | .methodType index => pool.IsUtf8 index
  | .field member | .method member | .interfaceMethod member =>
    (∃ name, pool.className member.className = .ok name) ∧ pool.NamesMember member.nameAndType
  | .nameAndType pair => pool.IsUtf8 pair.name ∧ pool.IsUtf8 pair.descriptor
  | .dynamic site | .invokeDynamic site => pool.NamesMember site.nameAndType
  | .methodHandle _ target => 1 ≤ target.toNat ∧ target.toNat ≤ pool.size
  | .integer _ | .float _ | .long _ | .double _ | .utf8 _ | .reserved => True

/-- Following references leads from one entry to another, in any number of steps. -/
def Reaches (pool : ConstantPool) : Constant → Constant → Prop :=
  Relation.ReflTransGen fun entry next => ∃ index ∈ entry.references, pool.get index = .ok next

variable {pool : ConstantPool} {index : UInt16} {entry target : Constant}

-- ---------------------------------------------------------------------------
-- Lookups
-- ---------------------------------------------------------------------------

theorem get_eq_ok_iff : pool.get index = .ok entry ↔
    1 ≤ index.toNat ∧ pool.entries[index.toNat - 1]? = some entry := by
  have hzero : index = 0 ↔ index.toNat = 0 := by
    rw [← UInt16.toNat_inj]
    rfl
  unfold get
  split
  · rename_i h
    have hnat := hzero.mp h
    exact ⟨nofun, fun h => absurd h.1 (by omega)⟩
  · rename_i h
    have hpositive : 1 ≤ index.toNat := Nat.pos_of_ne_zero fun hnat => h (hzero.mpr hnat)
    cases pool.entries[index.toNat - 1]? <;> simp [hpositive]

theorem get_of_slot {i : Nat} (hslot : pool.entries[i]? = some entry)
    (hindex : index.toNat = i + 1) : pool.get index = .ok entry := by
  have hplace : index.toNat - 1 = i := by omega
  exact get_eq_ok_iff.mpr ⟨by omega, by rw [hplace, hslot]⟩

theorem exists_get_iff :
    (∃ entry, pool.get index = .ok entry) ↔ 1 ≤ index.toNat ∧ index.toNat ≤ pool.size := by
  have hsize : pool.size = pool.entries.size := rfl
  constructor
  · rintro ⟨entry, hget⟩
    obtain ⟨hpositive, hslot⟩ := get_eq_ok_iff.mp hget
    have hlt := (Array.getElem?_eq_some_iff.mp hslot).1
    omega
  · rintro ⟨hpositive, hle⟩
    exact ⟨_, get_eq_ok_iff.mpr ⟨hpositive, Array.getElem?_eq_getElem (by omega)⟩⟩

theorem utf8_eq_ok_iff {text : String} :
    pool.utf8 index = .ok text ↔ pool.get index = .ok (.utf8 text) := by
  unfold utf8
  cases pool.get index with
  | error fault => exact ⟨nofun, nofun⟩
  | ok found => cases found <;> simp [bind, Except.bind]

theorem nameAndType_eq_ok_iff {pair : NameAndType} :
    pool.nameAndType index = .ok pair ↔ pool.get index = .ok (.nameAndType pair) := by
  unfold nameAndType
  cases pool.get index with
  | error fault => exact ⟨nofun, nofun⟩
  | ok found => cases found <;> simp [bind, Except.bind]

theorem className_eq_ok_iff {text : String} :
    pool.className index = .ok text ↔
      ∃ name, pool.get index = .ok (.className name) ∧ pool.utf8 name = .ok text := by
  unfold className
  cases pool.get index with
  | error fault => exact ⟨nofun, nofun⟩
  | ok found => cases found <;> simp [bind, Except.bind]

theorem isUtf8_iff : pool.IsUtf8 index ↔ ∃ text, pool.utf8 index = .ok text := by
  simp only [IsUtf8, utf8_eq_ok_iff]

-- ---------------------------------------------------------------------------
-- The check
-- ---------------------------------------------------------------------------

/-- A check that makes one lookup after another succeeds if they all do. -/
theorem bind_eq_ok_iff {α : Type} {found : Except PoolFault α} {next : Except PoolFault Unit} :
    (found >>= fun _ => next) = .ok () ↔ (∃ a, found = .ok a) ∧ next = .ok () := by
  cases found with
  | error fault => simp [bind, Except.bind]
  | ok a => simp [bind, Except.bind]

theorem checkEntry_of_resolves (h : pool.Resolves entry) : pool.checkEntry entry = .ok () := by
  cases entry with
  | className index | moduleName index | packageName index | string index | methodType index =>
    exact bind_eq_ok_iff.mpr ⟨isUtf8_iff.mp h, rfl⟩
  | field member | method member | interfaceMethod member =>
    obtain ⟨hname, pair, hpair, -⟩ := h
    exact bind_eq_ok_iff.mpr ⟨hname, bind_eq_ok_iff.mpr ⟨⟨pair, hpair⟩, rfl⟩⟩
  | nameAndType pair =>
    obtain ⟨hname, hdescriptor⟩ := h
    exact bind_eq_ok_iff.mpr
      ⟨isUtf8_iff.mp hname, bind_eq_ok_iff.mpr ⟨isUtf8_iff.mp hdescriptor, rfl⟩⟩
  | dynamic site | invokeDynamic site =>
    obtain ⟨pair, hpair, -⟩ := h
    exact bind_eq_ok_iff.mpr ⟨⟨pair, hpair⟩, rfl⟩
  | methodHandle kind target => exact bind_eq_ok_iff.mpr ⟨exists_get_iff.mpr h, rfl⟩
  | integer | float | long | double | utf8 | reserved => rfl

/-- The pair at an index is an entry, so a pool that passes has checked its texts. -/
theorem namesMember_of_check (hcheck : pool.check = .ok ())
    (h : ∃ pair, pool.nameAndType index = .ok pair) : pool.NamesMember index := by
  obtain ⟨pair, hpair⟩ := h
  have hmem := mem_of_get (nameAndType_eq_ok_iff.mp hpair)
  have hentry := checkEntry_of_check hcheck hmem
  obtain ⟨hname, hrest⟩ := bind_eq_ok_iff.mp hentry
  obtain ⟨hdescriptor, -⟩ := bind_eq_ok_iff.mp hrest
  exact ⟨pair, hpair, isUtf8_iff.mpr hname, isUtf8_iff.mpr hdescriptor⟩

theorem resolves_of_check (hcheck : pool.check = .ok ()) (hmem : entry ∈ pool.entries) :
    pool.Resolves entry := by
  have hentry := checkEntry_of_check hcheck hmem
  cases entry with
  | className index | moduleName index | packageName index | string index | methodType index =>
    exact isUtf8_iff.mpr (bind_eq_ok_iff.mp hentry).1
  | field member | method member | interfaceMethod member =>
    obtain ⟨hname, hrest⟩ := bind_eq_ok_iff.mp hentry
    exact ⟨hname, namesMember_of_check hcheck (bind_eq_ok_iff.mp hrest).1⟩
  | nameAndType pair =>
    obtain ⟨hname, hrest⟩ := bind_eq_ok_iff.mp hentry
    exact ⟨isUtf8_iff.mpr hname, isUtf8_iff.mpr (bind_eq_ok_iff.mp hrest).1⟩
  | dynamic site | invokeDynamic site =>
    exact namesMember_of_check hcheck (bind_eq_ok_iff.mp hentry).1
  | methodHandle kind target => exact exists_get_iff.mp (bind_eq_ok_iff.mp hentry).1
  | integer | float | long | double | utf8 | reserved => exact trivial

theorem forM_checkEntry {entries : List Constant}
    (h : ∀ entry ∈ entries, pool.checkEntry entry = .ok ()) :
    entries.forM pool.checkEntry = .ok () := by
  induction entries with
  | nil => rfl
  | cons first entries ih =>
    obtain ⟨hfirst, hrest⟩ := List.forall_mem_cons.mp h
    rw [List.forM_eq_forM, List.forM_cons, hfirst]
    exact ih hrest

/-- **The check is exact.** Looking at each entry once accepts the pools in which every reference
leads where it should, all the way down, and no others. -/
theorem check_eq_ok_iff :
    pool.check = .ok () ↔ ∀ entry ∈ pool.entries, pool.Resolves entry := by
  constructor
  · intro hcheck entry hmem
    exact resolves_of_check hcheck hmem
  · intro h
    refine forM_checkEntry fun entry hmem => ?_
    exact checkEntry_of_resolves (h entry (Array.mem_toList_iff.mp hmem))

-- ---------------------------------------------------------------------------
-- Chains
-- ---------------------------------------------------------------------------

theorem IsUtf8.exists_get (h : pool.IsUtf8 index) : ∃ found, pool.get index = .ok found := by
  obtain ⟨text, hget⟩ := h
  exact ⟨_, hget⟩

theorem NamesMember.exists_get (h : pool.NamesMember index) :
    ∃ found, pool.get index = .ok found := by
  obtain ⟨pair, hpair, -⟩ := h
  exact ⟨_, nameAndType_eq_ok_iff.mp hpair⟩

/-- Every reference of an entry that resolves leads to an entry. -/
theorem Resolves.exists_get (h : pool.Resolves entry) (hindex : index ∈ entry.references) :
    ∃ found, pool.get index = .ok found := by
  cases entry with
  | className name | moduleName name | packageName name | string name | methodType name =>
    obtain rfl := List.mem_singleton.mp hindex
    exact IsUtf8.exists_get h
  | field member | method member | interfaceMethod member =>
    obtain ⟨⟨name, hname⟩, hmember⟩ := h
    obtain ⟨target, hget, -⟩ := className_eq_ok_iff.mp hname
    rcases List.mem_pair.mp hindex with rfl | rfl
    · exact ⟨_, hget⟩
    · exact hmember.exists_get
  | nameAndType pair =>
    obtain ⟨hname, hdescriptor⟩ := h
    rcases List.mem_pair.mp hindex with rfl | rfl
    · exact hname.exists_get
    · exact hdescriptor.exists_get
  | dynamic site | invokeDynamic site =>
    obtain rfl := List.mem_singleton.mp hindex
    exact NamesMember.exists_get h
  | methodHandle kind target =>
    obtain rfl := List.mem_singleton.mp hindex
    exact exists_get_iff.mpr h
  | integer | float | long | double | utf8 | reserved => exact nomatch hindex

/-- Following references never leaves the pool. -/
theorem Reaches.mem (h : pool.Reaches entry target) (hmem : entry ∈ pool.entries) :
    target ∈ pool.entries := by
  induction h with
  | refl => exact hmem
  | tail _ hstep _ =>
    obtain ⟨index, -, hget⟩ := hstep
    exact mem_of_get hget

end ConstantPool

-- ---------------------------------------------------------------------------
-- Accepted files
-- ---------------------------------------------------------------------------

namespace ClassFile

open Reader

/-- Nothing behind the pool is read before the pool has passed its check. -/
theorem check_of_parse {input : Bytes} {file : ClassFile} (h : parse input = .ok file) :
    file.pool.check = .ok () := by
  obtain ⟨parts, -, hcheck, hbehind⟩ := parse_eq_ok_iff_parts.mp h
  rw [pool_of_readBehind hbehind]
  exact hcheck

/-- **No lookup in an accepted pool fails.** Every slot of an accepted file refers to entries of the
right kind, which lead on to texts where names are wanted. The same holds of every entry that can be
reached from a slot by following references, however far and in whichever direction they point. -/
theorem parse_resolves {input : Bytes} {file : ClassFile} (h : parse input = .ok file) :
    ∀ (i : Nat) (entry : Constant), file.pool.entries[i]? = some entry →
      file.pool.Resolves entry ∧
      ∀ target, file.pool.Reaches entry target →
        file.pool.Resolves target ∧
        ∀ index ∈ target.references, ∃ found, file.pool.get index = .ok found := by
  intro i entry hslot
  have hresolves := ConstantPool.check_eq_ok_iff.mp (check_of_parse h)
  have hmem : entry ∈ file.pool.entries := Array.mem_of_getElem? hslot
  refine ⟨hresolves entry hmem, fun target hreaches => ?_⟩
  have htarget := hresolves target (hreaches.mem hmem)
  exact ⟨htarget, fun index hindex => htarget.exists_get hindex⟩

/-- A class `A` whose pool refers ahead, back, to a slot that holds nothing, and from a method
handle to the handle itself. -/
def tangledFile : Bytes :=
  [0xCA, 0xFE, 0xBA, 0xBE, 0, 0, 0, 52, 0, 9, 7, 0, 2, 1, 0, 1, 65, 15, 1, 0, 3, 10, 0, 1, 0, 5,
    12, 0, 2, 0, 2, 5, 0, 0, 0, 0, 0, 0, 0, 9, 15, 2, 0, 7, 0, 1, 0, 1, 0, 0, 0, 0, 0, 0, 0, 0, 0, 0]

/-- The method's references can be followed through its name and descriptor, and the handle's back
to itself. -/
theorem tangledFile_resolves :
    ∃ file, parse tangledFile = .ok file ∧
      file.pool.Resolves (.method ⟨1, 5⟩) ∧ file.pool.Resolves (.nameAndType ⟨2, 2⟩) ∧
      (∃ found, file.pool.get 2 = .ok found) ∧
      file.pool.Reaches (.methodHandle 1 3) (.methodHandle 1 3) ∧
      file.pool.Resolves (.methodHandle 1 3) := by
  have h : parse tangledFile = .ok ⟨0, 52, ⟨#[.className 2, .utf8 "A", .methodHandle 1 3,
      .method ⟨1, 5⟩, .nameAndType ⟨2, 2⟩, .long 9, .reserved, .methodHandle 2 7]⟩, 1, "A", none,
      [], [], [], []⟩ := by rfl
  obtain ⟨hmethod, hchains⟩ := parse_resolves h 3 (.method ⟨1, 5⟩) rfl
  obtain ⟨hpair, hnames⟩ := hchains (.nameAndType ⟨2, 2⟩) (.single ⟨5, by decide, rfl⟩)
  refine ⟨_, h, hmethod, hpair, hnames 2 (by decide), .single ⟨3, by decide, rfl⟩, ?_⟩
  exact ((parse_resolves h 2 (.methodHandle 1 3) rfl).2 _ (.single ⟨3, by decide, rfl⟩)).1

end ClassFile

end ClassHost
