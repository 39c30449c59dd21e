import Rulisp.ArtifactRegions

/-!
# Which artifacts are accepted

The magic number chooses the format and the format's check decides whether
the file fits.  A file of fewer than four octets has no magic number; it is
passed on to the host loader, whatever it begins with.
-/

namespace Rulisp

open Octets Verdict

section Accept

variable {path : String} {file : List UInt8}

def elfMagic : List UInt8 := [0x7f, 0x45, 0x4c, 0x46]

def machoMagic : List UInt8 := [0xcf, 0xfa, 0xed, 0xfe]

theorem decides_elf :
    Decides (NotLoaded path) (elf path file)
      (64 ≤ file.length ∧ (octetAt file 4 = 2 → octetAt file 5 = 1 →
        ObjectFormat.elf64.Fits file)) := by
  have hsteps : Decides (NotLoaded path) (elf path file)
      (0 + 64 ≤ file.length ∧ (octetAt file 4 = 2 → octetAt file 5 = 1 →
        ObjectFormat.elf64.Fits file)) := by
    unfold elf
    refine decides_octets fun hheader => ?_
    have hread : ∀ index < 64,
        aref (slice file 0 64) index = .ok (octetAt file index) := by
      intro index hlt
      have hslice : aref (slice file 0 64) index = _ :=
        aref_of_lt (by rw [length_slice hheader]; exact hlt)
      rw [hslice, octetAt_slice file 0 hlt, Nat.zero_add]
    refine .read (hread 4 (by omega)) ?_
    refine decides_lispWhen fun _ => ?_
    refine .read (hread 5 (by omega)) ?_
    exact decides_lispWhen fun _ => ObjectFormat.decides_elf64 (by omega)
  exact hsteps.congr (by rw [Nat.zero_add])

/-- What the magic number asks of a file. -/
structure MagicMet (file : List UInt8) : Prop where
  elf : slice file 0 4 = elfMagic →
    64 ≤ file.length ∧ (octetAt file 4 = 2 → octetAt file 5 = 1 →
      ObjectFormat.elf64.Fits file)
  macho : slice file 0 4 = machoMagic → ObjectFormat.macho64.Fits file
  pe : octetAt file 0 = 0x4d → octetAt file 1 = 0x5a →
    ObjectFormat.pe.Fits file

theorem octetAt_of_slice {magic : List UInt8} {offset : ℕ}
    (hmagic : slice file 0 4 = magic) (hlt : offset < 4) :
    octetAt file offset = octetAt magic offset := by
  rw [← hmagic, octetAt_slice file 0 hlt, Nat.zero_add]

theorem decides_checkFormat (hmagic : 4 ≤ file.length) :
    Decides (NotLoaded path) (checkFormat path file (slice file 0 4))
      (MagicMet file) := by
  have hread : ∀ index < 4,
      aref (slice file 0 4) index = .ok (octetAt file index) := by
    intro index hlt
    have hslice : aref (slice file 0 4) index = _ :=
      aref_of_lt (by rw [length_slice (by omega)]; exact hlt)
    rw [hslice, octetAt_slice file 0 hlt, Nat.zero_add]
  unfold checkFormat
  split
  · rename_i helf
    have hfirst : octetAt file 0 = 0x7f := octetAt_of_slice helf (by omega)
    refine decides_elf.congr ⟨fun hmet => ?_, fun hmet => hmet.elf helf⟩
    refine ⟨fun _ => hmet, fun hmacho => ?_, fun hpe => ?_⟩
    · exact absurd (helf.symm.trans hmacho) (by decide)
    · omega
  · rename_i helf
    split
    · rename_i hmacho
      have hfirst : octetAt file 0 = 0xcf :=
        octetAt_of_slice hmacho (by omega)
      refine ObjectFormat.decides_macho.congr
        ⟨fun hmet => ?_, fun hmet => hmet.macho hmacho⟩
      exact ⟨fun h => absurd h helf, fun _ => hmet, fun hpe => by omega⟩
    · rename_i hmacho
      refine .read (hread 0 (by omega)) ?_
      have hpe : Decides (NotLoaded path)
          (lispWhen (octetAt file 0 = 0x4d) do
            let second ← aref (slice file 0 4) 1
            lispWhen (second = 0x5a) (Rulisp.pe path file))
          (octetAt file 0 = 0x4d → octetAt file 1 = 0x5a →
            ObjectFormat.pe.Fits file) := by
        refine decides_lispWhen fun _ => ?_
        refine .read (hread 1 (by omega)) ?_
        exact decides_lispWhen fun _ => ObjectFormat.decides_pe
      refine hpe.congr ⟨fun hmet => ?_, fun hmet => hmet.pe⟩
      exact ⟨fun h => absurd h helf, fun h => absurd h hmacho, hmet⟩

/-- A file whose format is known meets its magic number exactly when it
fits. -/
theorem magicMet_iff {format : ObjectFormat} (hof : format.Of file) :
    MagicMet file ↔ format.Fits file := by
  cases format with
  | elf64 =>
      obtain ⟨hmagic, hclass, horder⟩ := hof
      have hfirst : octetAt file 0 = 0x7f := octetAt_of_slice hmagic (by omega)
      constructor
      · exact fun hmet => (hmet.elf hmagic).2 hclass horder
      · intro hfits
        refine ⟨fun _ => ?_, fun hmacho => ?_, fun hpe => by omega⟩
        · exact ⟨hfits.regions _ .header, fun _ _ => hfits⟩
        · exact absurd (hmagic.symm.trans hmacho) (by decide)
  | macho64 =>
      have hmagic : slice file 0 4 = machoMagic := hof
      have hfirst : octetAt file 0 = 0xcf := octetAt_of_slice hmagic (by omega)
      constructor
      · exact fun hmet => hmet.macho hmagic
      · intro hfits
        refine ⟨fun helf => ?_, fun _ => hfits, fun hpe => by omega⟩
        exact absurd (hmagic.symm.trans helf) (by decide)
  | pe =>
      obtain ⟨hfirst, hsecond⟩ := hof
      constructor
      · exact fun hmet => hmet.pe hfirst hsecond
      · intro hfits
        refine ⟨fun helf => ?_, fun hmacho => ?_, fun _ _ => hfits⟩
        · have hother : octetAt file 0 = 0x7f :=
            octetAt_of_slice helf (by omega)
          omega
        · have hother : octetAt file 0 = 0xcf :=
            octetAt_of_slice hmacho (by omega)
          omega

/-- The format of a file is that of its prefixes, as far as they reach. -/
theorem of_cut {format : ObjectFormat} {cut rest : List UInt8}
    (hof : format.Of (cut ++ rest)) (hmagic : 4 ≤ cut.length)
    (hmet : MagicMet cut) : format.Of cut := by
  have hslice : slice (cut ++ rest) 0 4 = slice cut 0 4 := by
    unfold slice
    rw [List.drop_zero, List.drop_zero, List.take_append_of_le_length hmagic]
  cases format with
  | elf64 =>
      obtain ⟨helf, hclass, horder⟩ := hof
      rw [hslice] at helf
      have hheader := (hmet.elf helf).1
      rw [octetAt_append rest (by omega)] at hclass horder
      exact ⟨helf, hclass, horder⟩
  | macho64 => exact hslice.symm.trans hof
  | pe =>
      obtain ⟨hfirst, hsecond⟩ := hof
      rw [octetAt_append rest (by omega)] at hfirst hsecond
      exact ⟨hfirst, hsecond⟩

/-! ## The whole check -/

/-- A file with a magic number is accepted or refused by what the magic
number asks of it. -/
theorem checkArtifactShape_decides (hmagic : 4 ≤ file.length) :
    (checkArtifactShape path file = .ok path ∧ MagicMet file) ∨
      (∃ message, checkArtifactShape path file =
        .error (.crateNotLoaded path message)) ∧ ¬ MagicMet file := by
  have hread : octetsAt file 0 4 = some (slice file 0 4) := by
    have hlength : (slice file 0 4).length = 4 := length_slice (by omega)
    unfold octetsAt
    simp only [hlength, if_true]
  unfold checkArtifactShape
  rw [hread]
  rcases @decides_checkFormat path file hmagic with
    ⟨hok, hmet⟩ | ⟨⟨e, herror, message, rfl⟩, hmet⟩
  · left
    simp only [hok]
    exact ⟨rfl, hmet⟩
  · right
    simp only [herror]
    exact ⟨⟨message, rfl⟩, hmet⟩

theorem checkArtifactShape_short (hshort : file.length < 4) :
    checkArtifactShape path file = .ok path := by
  have hread : octetsAt file 0 4 = none := by
    unfold octetsAt slice
    simp only [List.drop_zero, List.length_take]
    rw [if_neg (by omega)]
  unfold checkArtifactShape
  rw [hread]
  rfl

theorem checkArtifactShape_ok_iff {format : ObjectFormat}
    (hof : format.Of file) (hmagic : 4 ≤ file.length) :
    checkArtifactShape path file = .ok path ↔ format.Fits file := by
  rw [← magicMet_iff hof]
  rcases @checkArtifactShape_decides path file hmagic with
    ⟨hok, hmet⟩ | ⟨⟨message, herror⟩, hmet⟩
  · exact iff_of_true hok hmet
  · refine iff_of_false ?_ hmet
    rw [herror]
    exact nofun

/-- A prefix that keeps the magic number but not every region is refused. -/
theorem checkArtifactShape_refuses_cut {format : ObjectFormat}
    {cut rest : List UInt8} {stop : ℕ} (hof : format.Of (cut ++ rest))
    (hmagic : 4 ≤ cut.length) (hstop : format.Region (cut ++ rest) stop)
    (hcut : cut.length < stop) :
    ∃ message, checkArtifactShape path cut =
      .error (.crateNotLoaded path message) := by
  rcases @checkArtifactShape_decides path cut hmagic with
    ⟨-, hmet⟩ | ⟨hrefused, -⟩
  · have hfits := (magicMet_iff (of_cut hof hmagic hmet)).mp hmet
    have hregion := (hfits.kept rest).regions stop hstop
    exact absurd (hfits.regions stop hregion) (not_le.mpr hcut)
  · exact hrefused

theorem of_append {format : ObjectFormat} (hof : format.Of file)
    (hmagic : 4 ≤ file.length) (hfits : format.Fits file)
    (rest : List UInt8) : format.Of (file ++ rest) := by
  have hslice : slice (file ++ rest) 0 4 = slice file 0 4 := by
    unfold slice
    rw [List.drop_zero, List.drop_zero, List.take_append_of_le_length hmagic]
  cases format with
  | elf64 =>
      obtain ⟨helf, hclass, horder⟩ := hof
      have hheader : 64 ≤ file.length := hfits.regions _ .header
      refine ⟨hslice.trans helf, ?_, ?_⟩
      · rw [octetAt_append rest (by omega), hclass]
      · rw [octetAt_append rest (by omega), horder]
  | macho64 => exact hslice.trans hof
  | pe =>
      obtain ⟨hfirst, hsecond⟩ := hof
      constructor
      · rw [octetAt_append rest (by omega), hfirst]
      · rw [octetAt_append rest (by omega), hsecond]

end Accept

theorem artifact_shape_outcome (path : String) (file : List UInt8) :
    checkArtifactShape path file = .ok path ∨
      ∃ message, checkArtifactShape path file =
        .error (.crateNotLoaded path message) := by
  by_cases hmagic : 4 ≤ file.length
  · exact (checkArtifactShape_decides hmagic).imp And.left And.left
  · exact .inl (checkArtifactShape_short (by omega))

/-- The check accepts a file or signals that it is not loaded, whatever the
file.  A file of at least four octets in a known format is accepted exactly
when its headers are well-formed and the regions they place end within it;
then every extension is accepted, and every prefix of at least four octets
that ends before some region is refused. -/
theorem artifact_shape_check (path : String) (file : List UInt8) :
    (checkArtifactShape path file = .ok path ∨
      ∃ message, checkArtifactShape path file =
        .error (.crateNotLoaded path message)) ∧
    ∀ format : ObjectFormat, format.Of file → 4 ≤ file.length →
      (checkArtifactShape path file = .ok path ↔ format.Fits file) ∧
      (checkArtifactShape path file = .ok path →
        (∀ rest, checkArtifactShape path (file ++ rest) = .ok path) ∧
        ∀ cut rest stop, file = cut ++ rest → 4 ≤ cut.length →
          format.Region file stop → cut.length < stop →
          ∃ message, checkArtifactShape path cut =
            .error (.crateNotLoaded path message)) := by
  refine ⟨artifact_shape_outcome path file, fun format hof hmagic => ?_⟩
  have hiff : checkArtifactShape path file = .ok path ↔ format.Fits file :=
    checkArtifactShape_ok_iff hof hmagic
  refine ⟨hiff, fun hok => ⟨fun rest => ?_, ?_⟩⟩
  · have hfits := hiff.mp hok
    have hlonger : 4 ≤ (file ++ rest).length := by
      rw [List.length_append]
      omega
    rw [checkArtifactShape_ok_iff (of_append hof hmagic hfits rest) hlonger]
    exact hfits.append rest
  · rintro cut rest stop rfl hcutMagic hstop hcut
    exact checkArtifactShape_refuses_cut hof hcutMagic hstop hcut

/-- What the loader's host reports of a file at `path`. -/
def shapeRefusalOf (path : String) (file : List UInt8) : Option Message :=
  match checkArtifactShape path file with
  | .error (.crateNotLoaded _ message) => some message
  | _ => none

/-- The loader is told of the file what the check on it signals. -/
theorem host_checkArtifactShape {host : LoadHost} (path : String)
    (file : List UInt8) (hhost : host.shapeRefusal = shapeRefusalOf path file) :
    host.checkArtifactShape path =
      (checkArtifactShape path file).map fun _ => () := by
  unfold LoadHost.checkArtifactShape
  rw [hhost, shapeRefusalOf]
  rcases (artifact_shape_outcome path file) with hok | ⟨message, herror⟩
  · rw [hok]
    rfl
  · rw [herror]
    rfl

/-- A PE file of a DOS header and a PE header with no sections. -/
def bareExecutable : List UInt8 :=
  [0x4d, 0x5a] ++ List.replicate 58 0 ++ [64, 0, 0, 0] ++
    [80, 69, 0, 0] ++ List.replicate 20 0

theorem artifact_shape_check_bare :
    (∀ rest, checkArtifactShape "a.dll" (bareExecutable ++ rest) =
      .ok "a.dll") ∧
    ∃ message, checkArtifactShape "a.dll" (bareExecutable.take 70) =
      .error (.crateNotLoaded "a.dll" message) ∧
      ∀ host : LoadHost, host.shapeRefusal =
          shapeRefusalOf "a.dll" (bareExecutable.take 70) →
        host.checkArtifactShape "a.dll" =
          .error (.crateNotLoaded "a.dll" message) := by
  have hspec := (artifact_shape_check "a.dll" bareExecutable).2 .pe
    ⟨rfl, rfl⟩ (by decide)
  have hok : checkArtifactShape "a.dll" bareExecutable = .ok "a.dll" := by
    decide +kernel
  have hlfanew : ObjectFormat.lfanew bareExecutable = 64 := by
    simp only [ObjectFormat.lfanew, field_succ, field_zero]
    decide
  obtain ⟨hextensions, hcuts⟩ := hspec.2 hok
  obtain ⟨message, hrefused⟩ := hcuts (bareExecutable.take 70)
    (bareExecutable.drop 70) _ (List.take_append_drop 70 _).symm
    (by decide) .peHeader (by rw [hlfanew]; decide)
  refine ⟨hextensions, message, hrefused, fun host hhost => ?_⟩
  rw [host_checkArtifactShape "a.dll" _ hhost, hrefused]
  rfl

/-- The first three octets of a PE file still begin with its magic number,
and they are accepted. -/
theorem magic_alone_accepted :
    checkArtifactShape "a.dll" bareExecutable = .ok "a.dll" ∧
    ObjectFormat.pe.Of bareExecutable ∧
    ObjectFormat.pe.Of (bareExecutable.take 3) ∧
    ObjectFormat.pe.Region bareExecutable 64 ∧
    (bareExecutable.take 3).length < 64 ∧
    checkArtifactShape "a.dll" (bareExecutable.take 3) = .ok "a.dll" := by
  refine ⟨by decide +kernel, ?_, ?_, .dosHeader, ?_, by decide +kernel⟩
  · constructor <;> rfl
  · constructor <;> rfl
  · decide

end Rulisp
