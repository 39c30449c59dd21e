import Rulisp.ArtifactShape
import Rulisp.Verdict

/-!
# What an artifact's headers place

The regions of an ELF, Mach-O or PE file are read here off the whole file,
without regard to its end.  The check accepts exactly the well-formed files
whose regions all end within the file, so it accepts every extension of a
file that it accepts, and no prefix that ends before one of its regions.
-/

namespace Rulisp

open Octets Verdict

/-! ## Formats -/

inductive ObjectFormat
  | elf64
  | macho64
  | pe
  deriving DecidableEq, Repr

namespace ObjectFormat

section Elf

variable (file : List UInt8)

def phoff : ℕ := field file 32 8
def shoff : ℕ := field file 40 8
def phentsize : ℕ := field file 54 2
def phnum : ℕ := field file 56 2
def shentsize : ℕ := field file 58 2
def shnum : ℕ := field file 60 2

/-- Where entry `i` of the program header table is. -/
def programHeader (i : ℕ) : ℕ := phoff file + i * phentsize file

/-- Where the regions of a 64-bit ELF file end. -/
inductive ElfRegion : ℕ → Prop
  | header : ElfRegion 64
  | sectionHeaders (hsections : 0 < shnum file) :
      ElfRegion (shoff file + shnum file * shentsize file)
  | programHeaders : ElfRegion (phoff file + phnum file * phentsize file)
  | load (i : ℕ) (hi : i < phnum file)
      (htype : field file (programHeader file i) 4 = 1) :
      ElfRegion (field file (programHeader file i + 8) 8 +
        field file (programHeader file i + 32) 8)

end Elf

section MachO

variable (file : List UInt8)

def ncmds : ℕ := field file 16 4
def sizeofcmds : ℕ := field file 20 4

/-- Where load command `i` is. -/
def loadCommand : ℕ → ℕ
  | 0 => 32
  | i + 1 => loadCommand i + field file (loadCommand i + 4) 4

/-- Where the regions of a 64-bit Mach-O file end. -/
inductive MachORegion : ℕ → Prop
  | header : MachORegion 32
  | loadCommands : MachORegion (32 + sizeofcmds file)
  | segment (i : ℕ) (hi : i < ncmds file)
      (htype : field file (loadCommand file i) 4 = 0x19) :
      MachORegion (field file (loadCommand file i + 40) 8 +
        field file (loadCommand file i + 48) 8)

/-- A load command lies in the table, as far as its kind has fields that are
read, and says a size of at least 8. -/
structure CommandWellFormed (i : ℕ) : Prop where
  head : loadCommand file i + 8 ≤ 32 + sizeofcmds file
  size : 8 ≤ field file (loadCommand file i + 4) 4
  segment : field file (loadCommand file i) 4 = 0x19 →
    loadCommand file i + 56 ≤ 32 + sizeofcmds file

end MachO

section Pe

variable (file : List UInt8)

def lfanew : ℕ := field file 60 4
def nsections : ℕ := field file (lfanew file + 6) 2

/-- Where the section table is. -/
def sectionTable : ℕ := lfanew file + 24 + field file (lfanew file + 20) 2

/-- Where the regions of a PE file end. -/
inductive PeRegion : ℕ → Prop
  | dosHeader : PeRegion 64
  | peHeader : PeRegion (lfanew file + 24)
  | sectionTable : PeRegion (sectionTable file + nsections file * 40)
  | rawData (i : ℕ) (hi : i < nsections file)
      (hraw : 0 < field file (sectionTable file + i * 40 + 16) 4) :
      PeRegion (field file (sectionTable file + i * 40 + 20) 4 +
        field file (sectionTable file + i * 40 + 16) 4)

end Pe

/-- The file begins as one of this format does. -/
def Of (format : ObjectFormat) (file : List UInt8) : Prop :=
  match format with
  | elf64 => slice file 0 4 = [0x7f, 0x45, 0x4c, 0x46] ∧
      octetAt file 4 = 2 ∧ octetAt file 5 = 1
  | macho64 => slice file 0 4 = [0xcf, 0xfa, 0xed, 0xfe]
  | pe => octetAt file 0 = 0x4d ∧ octetAt file 1 = 0x5a

def Region (format : ObjectFormat) (file : List UInt8) : ℕ → Prop :=
  match format with
  | elf64 => ElfRegion file
  | macho64 => MachORegion file
  | pe => PeRegion file

def WellFormed (format : ObjectFormat) (file : List UInt8) : Prop :=
  match format with
  | elf64 => 0 < phnum file → 56 ≤ phentsize file
  | macho64 => ∀ i < ncmds file, CommandWellFormed file i
  | pe => slice file (lfanew file) 4 = [80, 69, 0, 0]

/-- The headers are well-formed and every region ends within the file. -/
structure Fits (format : ObjectFormat) (file : List UInt8) : Prop where
  wellFormed : format.WellFormed file
  regions : ∀ stop, format.Region file stop → stop ≤ file.length

end ObjectFormat

/-! ## Reading within bounds -/

/-- A condition that the check may signal. -/
def NotLoaded (path : String) (e : LoadCondition) : Prop :=
  ∃ message, e = .crateNotLoaded path message

theorem aref_of_lt {octets : List UInt8} {index : ℕ}
    (hlt : index < octets.length) :
    aref octets index = .ok (octetAt octets index) := by
  have hsome := List.getElem?_eq_getElem hlt
  unfold aref octetAt
  rw [hsome]
  rfl

theorem le_of_le {octets : List UInt8} {offset width : ℕ}
    (hfits : offset + width ≤ octets.length) :
    le octets offset width = .ok (field octets offset width) := by
  induction width with
  | zero => rw [field_zero, le]
  | succ width ih =>
      have hinner := ih (by omega)
      have hlast : aref octets (offset + width) = _ := aref_of_lt (by omega)
      rw [field_succ, le, hinner, hlast]
      rfl

theorem cName_of_le {octets : List UInt8} {start count : ℕ}
    (hfits : start + count ≤ octets.length) :
    ∃ name, cName octets start count = .ok name := by
  unfold cName subseq
  rw [if_pos ⟨Nat.le_add_right start count, hfits⟩]
  exact ⟨_, rfl⟩

theorem le_slice {file : List UInt8} {start count offset width : ℕ}
    (hfile : start + count ≤ file.length) (hfits : offset + width ≤ count) :
    le (slice file start count) offset width =
      .ok (field file (start + offset) width) := by
  rw [le_of_le (by rw [length_slice hfile]; exact hfits),
    field_slice file start hfits]

/-! ## What each part of the check decides -/

section Decides

variable {path : String} {file : List UInt8}

theorem decides_refuse (detail : String) :
    Decides (NotLoaded path) (refuse path file detail) False :=
  .refuse ⟨_, rfl⟩

theorem decides_fits (stop : ℕ) (what : String) :
    Decides (NotLoaded path) (fits path file stop what)
      (stop ≤ file.length) := by
  unfold fits
  split
  · rename_i hlt
    exact (decides_refuse _).congr (by simpa using hlt)
  · rename_i hlt
    exact Decides.accept.congr (by simpa using hlt)

/-- A check on octets that are read within the file. -/
theorem decides_octets {start count : ℕ} {what : String}
    {next : List UInt8 → LispResult Unit} {later : Prop}
    (hnext : start + count ≤ file.length →
      Decides (NotLoaded path) (next (slice file start count)) later) :
    Decides (NotLoaded path) (octets path file start count what >>= next)
      (start + count ≤ file.length ∧ later) := by
  apply Decides.bind_value _ _ hnext
  · intro hfits
    have hok := (@decides_fits path file (start + count) what).ok_iff.mpr
      hfits
    have hread : octetsAt file start count =
        some (slice file start count) := by
      unfold octetsAt
      simp only [length_slice hfits, if_true]
    unfold octets
    rw [hok, hread]
    rfl
  · intro hfits
    obtain ⟨e, herror, hrefusal⟩ :=
      (@decides_fits path file (start + count) what).refuses hfits
    refine ⟨e, ?_, hrefusal⟩
    unfold octets
    rw [herror]
    rfl

theorem decides_lispWhen {test : Prop} [Decidable test]
    {body : LispResult Unit} {cond : Prop}
    (hbody : test → Decides (NotLoaded path) body cond) :
    Decides (NotLoaded path) (lispWhen test body) (test → cond) :=
  .ite hbody

theorem decides_dotimesFrom {body : ℕ → LispResult Unit} {cond : ℕ → Prop}
    (count : ℕ) (i : ℕ)
    (hbody : ∀ j, i ≤ j → j < i + count →
      Decides (NotLoaded path) (body j) (cond j)) :
    Decides (NotLoaded path) (dotimesFrom body i count)
      (∀ j, i ≤ j → j < i + count → cond j) := by
  induction count generalizing i with
  | zero => exact Decides.accept.congr (by simp; omega)
  | succ count ih =>
      have hfirst := hbody i le_rfl (by omega)
      have hrest := ih (i + 1) fun j hle hlt => hbody j (by omega) (by omega)
      refine (hfirst.bind fun _ => hrest).congr ?_
      constructor
      · rintro ⟨hi, hlater⟩ j hle hlt
        rcases Nat.eq_or_lt_of_le hle with rfl | hlt'
        · exact hi
        · exact hlater j hlt' (by omega)
      · intro hall
        exact ⟨hall i le_rfl (by omega),
          fun j hle hlt => hall j (by omega) (by omega)⟩

theorem decides_dotimes {body : ℕ → LispResult Unit} {cond : ℕ → Prop}
    {count : ℕ}
    (hbody : ∀ i < count, Decides (NotLoaded path) (body i) (cond i)) :
    Decides (NotLoaded path) (dotimes count body) (∀ i < count, cond i) := by
  have hloop := @decides_dotimesFrom path body cond count 0
    fun j _ hlt => hbody j (by omega)
  exact hloop.congr (by simp)

end Decides

/-! ### ELF -/

namespace ObjectFormat

section Elf

variable {path : String} {file : List UInt8}

theorem decides_elfSegment {table count entry i : ℕ}
    (htable : table + count * entry ≤ file.length) (hentry : 56 ≤ entry)
    (hi : i < count) :
    Decides (NotLoaded path)
      (elfSegment path file (slice file table (count * entry)) entry i)
      (field file (table + i * entry) 4 = 1 →
        field file (table + i * entry + 8) 8 +
          field file (table + i * entry + 32) 8 ≤ file.length) := by
  have hend : i * entry + entry ≤ count * entry := by
    have hmul := Nat.mul_le_mul_right entry (Nat.succ_le_of_lt hi)
    rwa [Nat.succ_mul] at hmul
  unfold elfSegment
  simp only
  refine .read (le_slice htable (by omega)) (decides_lispWhen fun _ => ?_)
  refine .read (le_slice htable (by omega)) ?_
  refine .read (le_slice htable (by omega)) ?_
  exact decides_fits _ _

/-- The conditions in the order of the source. -/
theorem decides_elf64_steps (hheader : 64 ≤ file.length) :
    Decides (NotLoaded path) (Rulisp.elf64 path file (slice file 0 64))
      ((0 < shnum file →
        shoff file + shnum file * shentsize file ≤ file.length) ∧
      (0 < phnum file ∧ phentsize file < 56 → False) ∧
      phoff file + phnum file * phentsize file ≤ file.length ∧
      ∀ i < phnum file, field file (programHeader file i) 4 = 1 →
        field file (programHeader file i + 8) 8 +
          field file (programHeader file i + 32) 8 ≤ file.length) := by
  have hread : ∀ offset width, offset + width ≤ 64 →
      le (slice file 0 64) offset width = .ok (field file offset width) := by
    intro offset width hfits
    have hslice : le (slice file 0 64) offset width = _ :=
      le_slice (by omega) hfits
    rw [hslice, Nat.zero_add]
  unfold Rulisp.elf64
  refine .read (hread 32 8 (by omega)) ?_
  refine .read (hread 40 8 (by omega)) ?_
  refine .read (hread 54 2 (by omega)) ?_
  refine .read (hread 56 2 (by omega)) ?_
  refine .read (hread 58 2 (by omega)) ?_
  refine .read (hread 60 2 (by omega)) ?_
  refine .bind (decides_lispWhen fun _ => decides_fits _ _) fun _ => ?_
  refine .bind (decides_lispWhen fun _ => decides_refuse _) fun hentry => ?_
  refine decides_octets fun htable => decides_dotimes fun i hi => ?_
  have hlarge : 56 ≤ phentsize file :=
    not_lt.mp fun hlt => hentry ⟨Nat.zero_lt_of_lt hi, hlt⟩
  exact decides_elfSegment htable hlarge hi

theorem decides_elf64 (hheader : 64 ≤ file.length) :
    Decides (NotLoaded path) (Rulisp.elf64 path file (slice file 0 64))
      (elf64.Fits file) := by
  refine (decides_elf64_steps hheader).congr ?_
  constructor
  · rintro ⟨hsections, hentry, htable, hloads⟩
    constructor
    · exact fun hsome => not_lt.mp fun hlt => hentry ⟨hsome, hlt⟩
    · intro stop hregion
      cases hregion with
      | header => exact hheader
      | sectionHeaders hsome => exact hsections hsome
      | programHeaders => exact htable
      | load i hi htype => exact hloads i hi htype
  · intro hfits
    refine ⟨?_, ?_, ?_, ?_⟩
    · exact fun hsome => hfits.regions _ (.sectionHeaders hsome)
    · exact fun hsmall => absurd (hfits.wellFormed hsmall.1)
        (not_le.mpr hsmall.2)
    · exact hfits.regions _ .programHeaders
    · exact fun i hi htype => hfits.regions _ (.load i hi htype)

end Elf

/-! ### Mach-O -/

section MachO

variable {path : String} {file : List UInt8}

theorem decides_machoSegment {size pos : ℕ}
    (htable : 32 + size ≤ file.length) :
    Decides (NotLoaded path) (machoSegment path file (slice file 32 size) pos)
      ((size < pos + 56 → False) ∧
        field file (32 + pos + 40) 8 + field file (32 + pos + 48) 8 ≤
          file.length) := by
  have hlength := length_slice htable
  unfold machoSegment
  rw [hlength]
  refine .bind (decides_lispWhen fun _ => decides_refuse _) fun hends => ?_
  have hend : pos + 56 ≤ size := not_lt.mp hends
  obtain ⟨name, hname⟩ : ∃ name,
      cName (slice file 32 size) (pos + 8) 16 = .ok name :=
    cName_of_le (by omega)
  refine .read (le_slice htable (by omega)) ?_
  refine .read (le_slice htable (by omega)) ?_
  refine .read hname ?_
  rw [← Nat.add_assoc, ← Nat.add_assoc]
  exact decides_fits _ _

/-- One round of the loop, before the others. -/
theorem decides_machoCommand {size pos count : ℕ} {later : Prop}
    (htable : 32 + size ≤ file.length)
    (hrest : Decides (NotLoaded path)
      (machoCommands path file (slice file 32 size)
        (pos + field file (32 + (pos + 4)) 4) count) later) :
    Decides (NotLoaded path)
      (machoCommands path file (slice file 32 size) pos (count + 1))
      ((size < pos + 8 → False) ∧
        (field file (32 + (pos + 4)) 4 < 8 → False) ∧
        (field file (32 + pos) 4 = 0x19 →
          (size < pos + 56 → False) ∧
            field file (32 + pos + 40) 8 + field file (32 + pos + 48) 8 ≤
              file.length) ∧
        later) := by
  have hlength := length_slice htable
  unfold machoCommands
  rw [hlength]
  refine .bind (decides_lispWhen fun _ => decides_refuse _) fun hhead => ?_
  have hend : pos + 8 ≤ size := not_lt.mp hhead
  refine .read (le_slice htable (by omega)) ?_
  refine .read (le_slice htable (by omega)) ?_
  refine .bind (decides_lispWhen fun _ => decides_refuse _) fun _ => ?_
  exact .bind (decides_lispWhen fun _ => decides_machoSegment htable)
    fun _ => hrest

/-- A load command is well-formed and its segment ends within the file. -/
def CommandFits (file : List UInt8) (i : ℕ) : Prop :=
  CommandWellFormed file i ∧
    (field file (loadCommand file i) 4 = 0x19 →
      field file (loadCommand file i + 40) 8 +
        field file (loadCommand file i + 48) 8 ≤ file.length)

/-- The load commands from number `k` on, which is at `pos` in the table. -/
theorem decides_machoCommands (count : ℕ) {k pos : ℕ}
    (htable : 32 + sizeofcmds file ≤ file.length)
    (hpos : loadCommand file k = 32 + pos) :
    Decides (NotLoaded path)
      (machoCommands path file (slice file 32 (sizeofcmds file)) pos count)
      (∀ i, k ≤ i → i < k + count → CommandFits file i) := by
  induction count generalizing k pos with
  | zero => exact Decides.accept.congr (by simp; omega)
  | succ count ih =>
      have hnext : loadCommand file (k + 1) =
          32 + (pos + field file (32 + (pos + 4)) 4) := by
        rw [loadCommand, hpos, Nat.add_assoc, Nat.add_assoc]
      refine (decides_machoCommand htable (ih hnext)).congr ?_
      constructor
      · rintro ⟨hhead, hsize, hsegment, hrest⟩ i hle hlt
        rcases Nat.eq_or_lt_of_le hle with rfl | hlt'
        · constructor
          · constructor
            · have hle := not_lt.mp hhead
              rw [hpos]
              omega
            · rw [hpos]
              exact not_lt.mp hsize
            · intro htype
              rw [hpos] at htype
              have hle := not_lt.mp (hsegment htype).1
              rw [hpos]
              omega
          · intro htype
            rw [hpos] at htype ⊢
            exact (hsegment htype).2
        · exact hrest i hlt' (by omega)
      · intro hall
        obtain ⟨hformed, hends⟩ := hall k le_rfl (by omega)
        have hhead := hformed.head
        have hsize := hformed.size
        have hsegment := hformed.segment
        rw [hpos] at hhead hsize hsegment hends
        refine ⟨?_, ?_, ?_, fun i hle hlt => hall i (by omega) (by omega)⟩
        · omega
        · exact not_lt.mpr hsize
        · intro htype
          have hle := hsegment htype
          exact ⟨by omega, hends htype⟩

theorem decides_macho :
    Decides (NotLoaded path) (macho path file) (macho64.Fits file) := by
  have hsteps : Decides (NotLoaded path) (macho path file)
      (0 + 32 ≤ file.length ∧ 32 + sizeofcmds file ≤ file.length ∧
        ∀ i, 0 ≤ i → i < 0 + ncmds file → CommandFits file i) := by
    unfold macho
    refine decides_octets fun hheader => ?_
    have hread : ∀ offset, offset + 4 ≤ 32 →
        le (slice file 0 32) offset 4 = .ok (field file offset 4) := by
      intro offset hfits
      have hslice : le (slice file 0 32) offset 4 = _ :=
        le_slice hheader hfits
      rw [hslice, Nat.zero_add]
    refine .read (hread 16 (by omega)) ?_
    refine .read (hread 20 (by omega)) ?_
    exact decides_octets fun htable => decides_machoCommands _ htable rfl
  refine hsteps.congr ?_
  constructor
  · rintro ⟨hheader, htable, hcommands⟩
    constructor
    · exact fun i hi => (hcommands i (Nat.zero_le i) (by omega)).1
    · intro stop hregion
      cases hregion with
      | header => omega
      | loadCommands => exact htable
      | segment i hi htype =>
          exact (hcommands i (Nat.zero_le i) (by omega)).2 htype
  · intro hfits
    refine ⟨?_, hfits.regions _ .loadCommands, ?_⟩
    · have hheader := hfits.regions _ .header
      omega
    · intro i _ hlt
      have hi : i < ncmds file := by omega
      exact ⟨hfits.wellFormed i hi,
        fun htype => hfits.regions _ (.segment i hi htype)⟩

end MachO

/-! ### PE -/

section Pe

variable {path : String} {file : List UInt8}

theorem decides_peSection {start count i : ℕ}
    (htable : start + count * 40 ≤ file.length) (hi : i < count) :
    Decides (NotLoaded path)
      (peSection path file (slice file start (count * 40)) i)
      (0 < field file (start + i * 40 + 16) 4 →
        field file (start + i * 40 + 20) 4 +
          field file (start + i * 40 + 16) 4 ≤ file.length) := by
  obtain ⟨name, hname⟩ : ∃ name,
      cName (slice file start (count * 40)) (i * 40) 8 = .ok name :=
    cName_of_le (by rw [length_slice htable]; omega)
  unfold peSection
  simp only
  refine .read (le_slice htable (by omega)) ?_
  rw [← Nat.add_assoc]
  refine decides_lispWhen fun _ => ?_
  refine .read (le_slice htable (by omega)) ?_
  refine .read hname ?_
  rw [← Nat.add_assoc]
  exact decides_fits _ _

theorem decides_pe :
    Decides (NotLoaded path) (Rulisp.pe path file) (pe.Fits file) := by
  have hsteps : Decides (NotLoaded path) (Rulisp.pe path file)
      (0 + 64 ≤ file.length ∧ lfanew file + 24 ≤ file.length ∧
        (slice file (lfanew file) 4 ≠ [80, 69, 0, 0] → False) ∧
        sectionTable file + nsections file * 40 ≤ file.length ∧
        ∀ i < nsections file,
          0 < field file (sectionTable file + i * 40 + 16) 4 →
            field file (sectionTable file + i * 40 + 20) 4 +
              field file (sectionTable file + i * 40 + 16) 4 ≤
                file.length) := by
    unfold Rulisp.pe
    refine decides_octets fun hheader => ?_
    have hlfanew : le (slice file 0 64) 60 4 = .ok (lfanew file) := by
      have hslice : le (slice file 0 64) 60 4 = _ :=
        le_slice hheader (by omega)
      rw [hslice, Nat.zero_add]
      rfl
    refine .read hlfanew ?_
    refine decides_octets fun hcoff => ?_
    have hsignature : subseq (slice file (lfanew file) 24) 0 4 =
        .ok (slice file (lfanew file) 4) := by
      unfold subseq
      rw [if_pos ⟨Nat.zero_le 4, by rw [length_slice hcoff]; omega⟩]
      simp [slice, List.take_take]
    refine .read hsignature ?_
    refine .bind (decides_lispWhen fun _ => decides_refuse _) fun _ => ?_
    refine .read (le_slice hcoff (by omega)) ?_
    refine .read (le_slice hcoff (by omega)) ?_
    exact decides_octets fun htable => decides_dotimes fun i hi =>
      decides_peSection htable hi
  refine hsteps.congr ?_
  constructor
  · rintro ⟨hheader, hcoff, hsignature, htable, hsections⟩
    constructor
    · exact not_not.mp hsignature
    · intro stop hregion
      cases hregion with
      | dosHeader => omega
      | peHeader => exact hcoff
      | sectionTable => exact htable
      | rawData i hi hraw => exact hsections i hi hraw
  · intro hfits
    refine ⟨?_, hfits.regions _ .peHeader, ?_, hfits.regions _ .sectionTable,
      ?_⟩
    · have hheader := hfits.regions _ .dosHeader
      omega
    · exact fun hne => hne hfits.wellFormed
    · exact fun i hi hraw => hfits.regions _ (.rawData i hi hraw)

end Pe

/-! ## Extensions -/

section Extensions

variable {file : List UInt8}

/-- What a format reads of a file that fits is the same in every extension. -/
structure KeptBy (format : ObjectFormat) (file longer : List UInt8) :
    Prop where
  wellFormed : format.WellFormed longer
  regions : ∀ stop, format.Region longer stop → format.Region file stop

theorem elf_kept (hfits : elf64.Fits file) (rest : List UInt8) :
    elf64.KeptBy file (file ++ rest) := by
  have hheader : 64 ≤ file.length := hfits.regions _ .header
  have htable : phoff file + phnum file * phentsize file ≤ file.length :=
    hfits.regions _ .programHeaders
  have hfield : ∀ offset width, offset + width ≤ 64 →
      field (file ++ rest) offset width = field file offset width :=
    fun offset width hwithin => field_append rest (by omega)
  have hphoff : phoff (file ++ rest) = phoff file := hfield _ _ (by omega)
  have hshoff : shoff (file ++ rest) = shoff file := hfield _ _ (by omega)
  have hphentsize : phentsize (file ++ rest) = phentsize file :=
    hfield _ _ (by omega)
  have hphnum : phnum (file ++ rest) = phnum file := hfield _ _ (by omega)
  have hshentsize : shentsize (file ++ rest) = shentsize file :=
    hfield _ _ (by omega)
  have hshnum : shnum (file ++ rest) = shnum file := hfield _ _ (by omega)
  have hprogramHeader : ∀ i,
      programHeader (file ++ rest) i = programHeader file i := by
    intro i
    rw [programHeader, programHeader, hphoff, hphentsize]
  have hentry : ∀ i < phnum file, programHeader file i + 40 ≤ file.length := by
    intro i hi
    have hwell : 56 ≤ phentsize file :=
      hfits.wellFormed (Nat.zero_lt_of_lt hi)
    have hmul := Nat.mul_le_mul_right (phentsize file) (Nat.succ_le_of_lt hi)
    rw [Nat.succ_mul] at hmul
    unfold programHeader
    omega
  constructor
  · intro hsome
    rw [hphnum] at hsome
    rw [hphentsize]
    exact hfits.wellFormed hsome
  · intro stop hregion
    cases hregion with
    | header => exact .header
    | sectionHeaders hsome =>
        rw [hshoff, hshnum, hshentsize]
        exact .sectionHeaders (hshnum ▸ hsome)
    | programHeaders =>
        rw [hphoff, hphnum, hphentsize]
        exact .programHeaders
    | load i hi htype =>
        rw [hphnum] at hi
        have hends := hentry i hi
        rw [hprogramHeader] at htype ⊢
        rw [field_append rest (by omega)] at htype
        rw [field_append rest (by omega), field_append rest (by omega)]
        exact .load i hi htype

theorem macho_kept (hfits : macho64.Fits file) (rest : List UInt8) :
    macho64.KeptBy file (file ++ rest) := by
  have hheader : 32 ≤ file.length := hfits.regions _ .header
  have htable : 32 + sizeofcmds file ≤ file.length :=
    hfits.regions _ .loadCommands
  have hncmds : ncmds (file ++ rest) = ncmds file :=
    field_append rest (by omega)
  have hsizeofcmds : sizeofcmds (file ++ rest) = sizeofcmds file :=
    field_append rest (by omega)
  have hloadCommand : ∀ i ≤ ncmds file,
      loadCommand (file ++ rest) i = loadCommand file i := by
    intro i hi
    induction i with
    | zero => rfl
    | succ i ih =>
        have hformed := hfits.wellFormed i (by omega)
        have hhead := hformed.head
        rw [loadCommand, loadCommand, ih (by omega),
          field_append rest (by omega)]
  constructor
  · intro i hi
    rw [hncmds] at hi
    have hformed := hfits.wellFormed i hi
    have hhead := hformed.head
    constructor
    · rw [hloadCommand i hi.le, hsizeofcmds]
      exact hhead
    · rw [hloadCommand i hi.le, field_append rest (by omega)]
      exact hformed.size
    · rw [hloadCommand i hi.le, field_append rest (by omega), hsizeofcmds]
      exact hformed.segment
  · intro stop hregion
    cases hregion with
    | header => exact .header
    | loadCommands =>
        rw [hsizeofcmds]
        exact .loadCommands
    | segment i hi htype =>
        rw [hncmds] at hi
        have hformed := hfits.wellFormed i hi
        have hhead := hformed.head
        rw [hloadCommand i hi.le] at htype ⊢
        rw [field_append rest (by omega)] at htype
        have hsegment := hformed.segment htype
        rw [field_append rest (by omega), field_append rest (by omega)]
        exact .segment i hi htype

theorem pe_kept (hfits : pe.Fits file) (rest : List UInt8) :
    pe.KeptBy file (file ++ rest) := by
  have hheader : 64 ≤ file.length := hfits.regions _ .dosHeader
  have hcoff : lfanew file + 24 ≤ file.length := hfits.regions _ .peHeader
  have htable : sectionTable file + nsections file * 40 ≤ file.length :=
    hfits.regions _ .sectionTable
  have hlfanew : lfanew (file ++ rest) = lfanew file :=
    field_append rest (by omega)
  have hnsections : nsections (file ++ rest) = nsections file := by
    rw [nsections, nsections, hlfanew, field_append rest (by omega)]
  have hsectionTable : sectionTable (file ++ rest) = sectionTable file := by
    rw [sectionTable, sectionTable, hlfanew, field_append rest (by omega)]
  constructor
  · have hsignature : slice (file ++ rest) (lfanew (file ++ rest)) 4 =
        slice file (lfanew file) 4 := by
      rw [hlfanew]
      unfold slice
      rw [List.drop_append_of_le_length (by omega),
        List.take_append_of_le_length (by rw [List.length_drop]; omega)]
    exact hsignature.trans hfits.wellFormed
  · intro stop hregion
    cases hregion with
    | dosHeader => exact .dosHeader
    | peHeader =>
        rw [hlfanew]
        exact .peHeader
    | sectionTable =>
        rw [hsectionTable, hnsections]
        exact .sectionTable
    | rawData i hi hraw =>
        rw [hnsections] at hi
        rw [hsectionTable, field_append rest (by omega)] at hraw
        rw [hsectionTable, field_append rest (by omega),
          field_append rest (by omega)]
        exact .rawData i hi hraw

theorem Fits.kept {format : ObjectFormat} (hfits : format.Fits file)
    (rest : List UInt8) : format.KeptBy file (file ++ rest) := by
  cases format with
  | elf64 => exact elf_kept hfits rest
  | macho64 => exact macho_kept hfits rest
  | pe => exact pe_kept hfits rest

theorem Fits.append {format : ObjectFormat} (hfits : format.Fits file)
    (rest : List UInt8) : format.Fits (file ++ rest) := by
  have hkept := hfits.kept rest
  refine ⟨hkept.wellFormed, fun stop hregion => ?_⟩
  have hstop := hfits.regions stop (hkept.regions stop hregion)
  rw [List.length_append]
  omega

end Extensions

end ObjectFormat

end Rulisp
