import Rulisp.CrateRegistry
import Rulisp.Octets

/-!
# The shape of an artifact

`%check-artifact-shape` refuses an object file whose own headers place
something past the end of the file: ELF (64-bit, little-endian), Mach-O 64
and PE.  Every `aref` of the source can be out of bounds here, which is an
error of the host; that none ever is, is a theorem.
-/

namespace Rulisp

open Octets

/-! ## Reading -/

/-- `%octets-at`: NIL when the file ends first. -/
def octetsAt (file : List UInt8) (start count : ℕ) : Option (List UInt8) :=
  let read := slice file start count
  if read.length = count then some read else none

/-- `(aref octets index)`. -/
def aref (octets : List UInt8) (index : ℕ) : LispResult ℕ :=
  match octets[index]? with
  | some octet => .ok octet.toNat
  | none => hostError .typeError

/-- `%le`. -/
def le (octets : List UInt8) (offset : ℕ) : ℕ → LispResult ℕ
  | 0 => .ok 0
  | width + 1 => do
      let low ← le octets offset width
      let octet ← aref octets (offset + width)
      return low + octet * 2 ^ (8 * width)

/-- `(subseq octets start end)`. -/
def subseq (octets : List UInt8) (start stop : ℕ) : LispResult (List UInt8) :=
  if start ≤ stop ∧ stop ≤ octets.length then
    .ok (slice octets start (stop - start))
  else hostError .typeError

/-- `%c-name`. -/
def cName (octets : List UInt8) (start count : ℕ) : LispResult String := do
  let name ← subseq octets start (start + count)
  return String.ofList ((name.filter (· ≠ 0)).map fun octet =>
    Char.ofNat octet.toNat)

/-- `(when test body)`. -/
def lispWhen (test : Prop) [Decidable test] (body : LispResult Unit) :
    LispResult Unit :=
  if test then body else .ok ()

/-- `(dotimes (i count) (body i))`, from `i` on. -/
def dotimesFrom (body : ℕ → LispResult Unit) : ℕ → ℕ → LispResult Unit
  | _, 0 => .ok ()
  | i, count + 1 => do
      body i
      dotimesFrom body (i + 1) count

def dotimes (count : ℕ) (body : ℕ → LispResult Unit) : LispResult Unit :=
  dotimesFrom body 0 count

/-! ## `%check-artifact-shape` -/

section CheckArtifactShape

variable (path : String) (file : List UInt8)

def refuse {α : Type} (detail : String) : LispResult α :=
  .error (.crateNotLoaded path
    [.text ("artifact is truncated or corrupt: " ++ detail ++ " (" ++
      toString file.length ++ " bytes)")])

def fits (stop : ℕ) (what : String) : LispResult Unit :=
  if file.length < stop then
    refuse path file (what ++ " ends at byte " ++ toString stop)
  else .ok ()

def octets (start count : ℕ) (what : String) : LispResult (List UInt8) := do
  fits path file (start + count) what
  match octetsAt file start count with
  | some read => return read
  | none => refuse path file (what ++ " could not be read")

/-- Entry `i` of the program header table `ph`. -/
def elfSegment (ph : List UInt8) (phentsize i : ℕ) : LispResult Unit := do
  let p := i * phentsize
  let type ← le ph p 4
  lispWhen (type = 1) do
    let offset ← le ph (p + 8) 8
    let filesz ← le ph (p + 32) 8
    fits path file (offset + filesz) ("PT_LOAD segment " ++ toString i)

/-- `elf`, once the class and the byte order are those supported. -/
def elf64 (h : List UInt8) : LispResult Unit := do
  let phoff ← le h 32 8
  let shoff ← le h 40 8
  let phentsize ← le h 54 2
  let phnum ← le h 56 2
  let shentsize ← le h 58 2
  let shnum ← le h 60 2
  lispWhen (0 < shnum)
    (fits path file (shoff + shnum * shentsize) "the section header table")
  lispWhen (0 < phnum ∧ phentsize < 56)
    (refuse path file
      ("e_phentsize is " ++ toString phentsize ++ ", below a 64-bit entry"))
  let ph ← octets path file phoff (phnum * phentsize)
    "the program header table"
  dotimes phnum (elfSegment path file ph phentsize)

def elf : LispResult Unit := do
  let h ← octets path file 0 64 "the ELF header"
  let elfClass ← aref h 4
  lispWhen (elfClass = 2) do
    let byteOrder ← aref h 5
    lispWhen (byteOrder = 1) (elf64 path file h)

/-- One LC_SEGMENT_64. -/
def machoSegment (cmds : List UInt8) (pos : ℕ) : LispResult Unit := do
  lispWhen (cmds.length < pos + 56)
    (refuse path file "an LC_SEGMENT_64 lies past sizeofcmds")
  let fileoff ← le cmds (pos + 40) 8
  let filesize ← le cmds (pos + 48) 8
  let name ← cName cmds (pos + 8) 16
  fits path file (fileoff + filesize) ("segment " ++ name)

/-- The loop over the load commands; `count` of them are left. -/
def machoCommands (cmds : List UInt8) : ℕ → ℕ → LispResult Unit
  | _, 0 => .ok ()
  | pos, count + 1 => do
      lispWhen (cmds.length < pos + 8)
        (refuse path file "a load command lies past sizeofcmds")
      let cmd ← le cmds pos 4
      let cmdsize ← le cmds (pos + 4) 4
      lispWhen (cmdsize < 8)
        (refuse path file "a load command has cmdsize below 8")
      lispWhen (cmd = 0x19) (machoSegment path file cmds pos)
      machoCommands cmds (pos + cmdsize) count

def macho : LispResult Unit := do
  let h ← octets path file 0 32 "the Mach-O header"
  let ncmds ← le h 16 4
  let sizeofcmds ← le h 20 4
  let cmds ← octets path file 32 sizeofcmds "the load command table"
  machoCommands path file cmds 0 ncmds

/-- Entry `i` of the section table. -/
def peSection (table : List UInt8) (i : ℕ) : LispResult Unit := do
  let s := i * 40
  let raw ← le table (s + 16) 4
  lispWhen (0 < raw) do
    let pointer ← le table (s + 20) 4
    let name ← cName table s 8
    fits path file (pointer + raw) ("section " ++ name)

def pe : LispResult Unit := do
  let dos ← octets path file 0 64 "the DOS header"
  let lfanew ← le dos 60 4
  let coff ← octets path file lfanew 24 "the PE header"
  let signature ← subseq coff 0 4
  lispWhen (signature ≠ [80, 69, 0, 0])
    (refuse path file "no PE signature where e_lfanew points")
  let nsections ← le coff 6 2
  let sizeofOptionalHeader ← le coff 20 2
  let table ← octets path file (lfanew + 24 + sizeofOptionalHeader)
    (nsections * 40) "the section table"
  dotimes nsections (peSection path file table)

/-- The check that the magic number asks for. -/
def checkFormat (magic : List UInt8) : LispResult Unit :=
  if magic = [0x7f, 0x45, 0x4c, 0x46] then elf path file
  else if magic = [0xcf, 0xfa, 0xed, 0xfe] then macho path file
  else do
    let first ← aref magic 0
    lispWhen (first = 0x4d) do
      let second ← aref magic 1
      lispWhen (second = 0x5a) (pe path file)

/-- `%check-artifact-shape`; the value is the path. -/
def checkArtifactShape : LispResult String := do
  match octetsAt file 0 4 with
  | none => return path
  | some magic =>
      checkFormat path file magic
      return path

end CheckArtifactShape

end Rulisp
