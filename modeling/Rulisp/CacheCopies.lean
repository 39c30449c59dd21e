import Mathlib.Data.Nat.Digits.Defs
import Rulisp.CrateRegistry
import Rulisp.TransitionSystem

/-!
# The copies in the crate cache

Processes that share one cache directory make copies of artifacts and sweep
what nobody needs.  A copy's name carries the crate's name, the process tag, a
counter and the time, and the sweep reads the process id back out of it.  A
sweep takes its time and its listing at its start, and then visits one file
after the other, while the other processes go on.
-/

namespace Rulisp

open TransitionSystem

/-! ## Names of copies -/

/-- `*process-tag*`: a pid, or a random number where the host exposes none. -/
inductive ProcessTag
  | pid (id : ℕ)
  | random (n : ℕ)
  deriving DecidableEq, Repr

def digit36 (d : ℕ) : Char :=
  if d < 10 then Char.ofNat (48 + d) else Char.ofNat (55 + d)

/-- `~36R`. -/
def radix36 (n : ℕ) : List Char :=
  if n = 0 then ['0'] else (Nat.digits 36 n).reverse.map digit36

def ProcessTag.text : ProcessTag → List Char
  | .pid id => 'p' :: Nat.toDigits 10 id
  | .random n => 'r' :: radix36 n

/-- The process id that a tag carries. -/
def ProcessTag.processId : ProcessTag → Option ℕ
  | .pid id => some id
  | .random _ => none

abbrev FileName := List Char

/-- `(substitute #\_ #\- name)`, the first field of a copy's name. -/
def copyBase (name : String) : List Char := (underscored name).toList

/-- `%cache-copy-name`; `counter` is `*copy-counter*` after the increment. -/
def cacheCopyName (base : List Char) (tag : ProcessTag) (counter time : ℕ)
    (type : List Char) : FileName :=
  base ++ '-' :: (tag.text ++ '-' :: ('c' :: Nat.toDigits 10 counter ++
    '-' :: (Nat.toDigits 10 time ++ '.' :: type)))

/-- `%copy-pid`. -/
def copyPid (fname : FileName) : Option ℕ :=
  match (fname.splitOn '-')[1]? with
  | some ('p' :: digits) =>
      if digits ≠ [] ∧ digits.all Char.isDigit then
        some (Nat.ofDigitChars 10 digits 0)
      else none
  | _ => none

/-! ## The fields of a name -/

theorem hyphen_notMem_copyBase (name : String) : '-' ∉ copyBase name := by
  simp only [copyBase, underscored, String.toList_ofList, List.mem_map,
    not_exists, not_and]
  intro ch _
  split_ifs with hyphen
  · decide
  · exact hyphen

theorem hyphen_notMem_toDigits (n : ℕ) : '-' ∉ Nat.toDigits 10 n := by
  intro hmem
  have hdigit := Nat.isDigit_of_mem_toDigits (by decide) (by decide) hmem
  exact absurd hdigit (by decide)

theorem hyphen_notMem_radix36 (n : ℕ) : '-' ∉ radix36 n := by
  have hdigits : ∀ d < 36, digit36 d ≠ '-' := by decide
  unfold radix36
  split_ifs with hzero
  · decide
  · simp only [List.mem_map, List.mem_reverse, not_exists, not_and]
    intro d hd
    exact hdigits d (Nat.digits_lt_base (by decide) hd)

theorem hyphen_notMem_text (tag : ProcessTag) : '-' ∉ tag.text := by
  cases tag with
  | pid id => simpa [ProcessTag.text] using hyphen_notMem_toDigits id
  | random n => simpa [ProcessTag.text] using hyphen_notMem_radix36 n

theorem hyphen_notMem_counter (counter : ℕ) :
    '-' ∉ 'c' :: Nat.toDigits 10 counter := by
  simpa using hyphen_notMem_toDigits counter

/-- What comes before the first hyphen, and what comes after it. -/
theorem hyphen_cancel {left right : List Char} (hleft : '-' ∉ left)
    (hright : '-' ∉ right) {after other : List Char}
    (heq : left ++ '-' :: after = right ++ '-' :: other) :
    left = right ∧ after = other := by
  induction left generalizing right with
  | nil =>
      cases right with
      | nil => simpa using heq
      | cons ch right =>
          simp only [List.nil_append, List.cons_append, List.cons.injEq] at heq
          exact absurd (heq.1 ▸ List.mem_cons_self) hright
  | cons ch left ih =>
      cases right with
      | nil =>
          simp only [List.nil_append, List.cons_append, List.cons.injEq] at heq
          exact absurd (heq.1 ▸ List.mem_cons_self) hleft
      | cons ch' right =>
          simp only [List.cons_append, List.cons.injEq] at heq
          obtain ⟨hhead, hrest⟩ := heq
          have htails := ih (fun h => hleft (List.mem_cons_of_mem _ h))
            (fun h => hright (List.mem_cons_of_mem _ h)) hrest
          exact ⟨by rw [hhead, htails.1], htails.2⟩

/-- A copy's name determines its base, its tag and its counter. -/
theorem cacheCopyName_inj {base base' : List Char} {tag tag' : ProcessTag}
    {counter counter' time time' : ℕ} {type type' : List Char}
    (hbase : '-' ∉ base) (hbase' : '-' ∉ base')
    (heq : cacheCopyName base tag counter time type =
      cacheCopyName base' tag' counter' time' type') :
    base = base' ∧ tag.text = tag'.text ∧ counter = counter' := by
  obtain ⟨hbases, hrest⟩ := hyphen_cancel hbase hbase' heq
  obtain ⟨htags, hrest⟩ := hyphen_cancel (hyphen_notMem_text tag)
    (hyphen_notMem_text tag') hrest
  obtain ⟨hcounters, -⟩ := hyphen_cancel (hyphen_notMem_counter counter)
    (hyphen_notMem_counter counter') hrest
  refine ⟨hbases, htags, ?_⟩
  have hdigits := congrArg (fun digits => Nat.ofDigitChars 10 digits 0)
    (List.cons.inj hcounters).2
  simpa using hdigits

/-- The second field of a copy's name is the tag. -/
theorem splitOn_cacheCopyName {base : List Char} (hbase : '-' ∉ base)
    (tag : ProcessTag) (counter time : ℕ) (type : List Char) :
    ((cacheCopyName base tag counter time type).splitOn '-')[1]? =
      some tag.text := by
  have hfield : ∀ {field : List Char} (rest : List Char), '-' ∉ field →
      (field ++ '-' :: rest).splitOn '-' = field :: rest.splitOn '-' := by
    intro field rest hfield
    simp only [List.splitOn_eq_splitOnP]
    apply List.splitOnP_append_cons_of_forall_mem
    · intro ch hch
      simp only [beq_eq_false_iff_ne]
      rintro rfl
      exact hfield hch
    · rfl
  unfold cacheCopyName
  rw [hfield _ hbase, hfield _ (hyphen_notMem_text tag)]
  rfl

/-- `%copy-pid` of a copy's name is the pid of the process that made it. -/
theorem copyPid_cacheCopyName {base : List Char} (hbase : '-' ∉ base)
    (tag : ProcessTag) (counter time : ℕ) (type : List Char) :
    copyPid (cacheCopyName base tag counter time type) = tag.processId := by
  unfold copyPid
  rw [splitOn_cacheCopyName hbase]
  cases tag with
  | pid id =>
      have hdigits : (Nat.toDigits 10 id).all Char.isDigit = true := by
        rw [List.all_eq_true]
        intro ch hch
        exact Nat.isDigit_of_mem_toDigits (by decide) (by decide) hch
      have hsome : Nat.toDigits 10 id ≠ [] := Nat.toDigits_ne_nil
      simp only [ProcessTag.text, ProcessTag.processId, hdigits, hsome, ne_eq,
        not_false_eq_true, and_self, if_true, Nat.ofDigitChars_ten_toDigits]
  | random n => rfl

/-! ## The sweep of one file -/

/-- The prefix of every copy of a crate. -/
def anyPrefix (name : String) : List Char := copyBase name ++ ['-']

/-- The prefix of the crate's copies that this process made. -/
def ownPrefix (name : String) (tag : ProcessTag) : List Char :=
  copyBase name ++ '-' :: (tag.text ++ ['-', 'c'])

/-- The test of `%sweep-crate-cache` on one file; `age` is `none` when the
file has no write date. -/
def sweepDeletes (name : String) (tag : ProcessTag) (current : FileName)
    (gone : ℕ → Bool) (fname : FileName) (age : Option ℤ) : Bool :=
  fname ≠ current ∧
    ((anyPrefix name).isPrefixOf fname ∧
        ((ownPrefix name tag).isPrefixOf fname ∨ age.any (3600 < ·)) ∨
      (copyPid fname).any fun pid => age.any (60 < ·) && gone pid)

/-- The own prefix is found on the own copies only. -/
theorem tag_of_ownPrefix {name : String} {tag tag' : ProcessTag}
    {base : List Char} {counter time : ℕ} {type : List Char}
    (hbase : '-' ∉ base)
    (hown : ownPrefix name tag <+: cacheCopyName base tag' counter time type) :
    tag.text = tag'.text := by
  obtain ⟨rest, hrest⟩ := hown
  have hfields : copyBase name ++ '-' :: (tag.text ++ '-' :: ('c' :: rest)) =
      cacheCopyName base tag' counter time type := by
    simpa [ownPrefix] using hrest
  obtain ⟨-, hafter⟩ := hyphen_cancel (hyphen_notMem_copyBase name) hbase hfields
  exact (hyphen_cancel (hyphen_notMem_text tag) (hyphen_notMem_text tag')
    hafter).1

/-- A copy of another process is deleted when it is an hour old, or when it
is a minute old and the probe finds its process gone. -/
theorem age_of_sweepDeletes {name : String} {tag tag' : ProcessTag}
    {current : FileName} {gone : ℕ → Bool} {base : List Char}
    {counter time : ℕ} {type : List Char} {age : ℤ} (hbase : '-' ∉ base)
    (htag : tag.text ≠ tag'.text)
    (hdeletes : sweepDeletes name tag current gone
      (cacheCopyName base tag' counter time type) (some age) = true) :
    3600 < age ∨
      60 < age ∧ ∃ pid, tag'.processId = some pid ∧ gone pid = true := by
  simp only [sweepDeletes, decide_eq_true_eq, List.isPrefixOf_iff_prefix,
    Option.any_some, copyPid_cacheCopyName hbase, Option.any_eq_true,
    Bool.and_eq_true] at hdeletes
  obtain ⟨-, ⟨-, hown | hold⟩ | ⟨pid, hpid, hage, hgone⟩⟩ := hdeletes
  · exact absurd (tag_of_ownPrefix hbase hown) htag
  · exact .inl hold
  · exact .inr ⟨hage, pid, hpid, hgone⟩

/-! ## Processes that share a cache -/

/-- A copy in the cache. -/
structure CacheCopy (P : Type) where
  creator : P
  name : FileName
  written : ℕ
  deriving DecidableEq, Repr

/-- A sweep under way. -/
structure Sweep where
  crate : String
  current : FileName
  now : ℕ
  remaining : List FileName
  deriving DecidableEq, Repr

/-- A deletion by a sweep; `alive` says whether the copy's creator ran. -/
structure Deletion (P : Type) where
  sweeper : P
  current : FileName
  now : ℕ
  copy : CacheCopy P
  alive : Bool
  deriving DecidableEq, Repr

def Deletion.age {P : Type} (deletion : Deletion P) : ℤ :=
  deletion.now - deletion.copy.written

/-- The cache directory, what the processes are doing, and the processes of
the host that exist. -/
structure Cache (P : Type) where
  clock : ℕ
  alive : P → Bool
  pids : ℕ → Bool
  counters : P → ℕ
  /-- The copy of a load that has not committed yet. -/
  loading : P → Option FileName
  sweeping : P → Option Sweep
  directory : List (CacheCopy P)
  produced : List (CacheCopy P)
  deletions : List (Deletion P)

/-- An empty cache.  A restored image goes on from the counter of the dumped
one. -/
def Cache.initial {P : Type} (counters : P → ℕ) : Cache P where
  clock := 0
  alive := fun _ => true
  pids := fun _ => true
  counters := counters
  loading := fun _ => none
  sweeping := fun _ => none
  directory := []
  produced := []
  deletions := []

inductive CacheAction (P : Type)
  | clock (time : ℕ)
  | exit (process : P)
  /-- An unrelated process gets a pid. -/
  | reusePid (pid : ℕ)
  /-- A load copies its artifact; `source` is `:crate` or the derived name. -/
  | copy (process : P) (source : String)
  /-- The load does not commit and deletes its copy. -/
  | abandon (process : P)
  /-- The load has committed a crate and begins its sweep. -/
  | sweep (process : P) (crate : String)
  /-- The next file of the sweep; the host may fail to delete it. -/
  | visit (process : P) (refused : Bool)

section Cache

variable {P : Type} [DecidableEq P] (tags : P → ProcessTag) (type : List Char)
  (posix : Bool)

/-- `%process-gone-p`, a correct probe on POSIX. -/
def Cache.gone (cache : Cache P) (pid : ℕ) : Bool :=
  posix && !cache.pids pid

def Cache.exit (cache : Cache P) (process : P) : Cache P :=
  { cache with
    alive := Function.update cache.alive process false
    pids :=
      match (tags process).processId with
      | some pid => Function.update cache.pids pid false
      | none => cache.pids
    loading := Function.update cache.loading process none
    sweeping := Function.update cache.sweeping process none }

/-- The copy that a load is about to make. -/
def Cache.nextCopy (cache : Cache P) (process : P) (source : String) :
    CacheCopy P where
  creator := process
  name := cacheCopyName (copyBase source) (tags process)
    (cache.counters process + 1) cache.clock type
  written := cache.clock

def Cache.copy (cache : Cache P) (process : P) (source : String) : Cache P :=
  let made := cache.nextCopy tags type process source
  { cache with
    counters :=
      Function.update cache.counters process (cache.counters process + 1)
    loading := Function.update cache.loading process (some made.name)
    directory := cache.directory ++ [made]
    produced := cache.produced ++ [made] }

/-- `delete-file`. -/
def Cache.remove (cache : Cache P) (name : FileName) : Cache P :=
  { cache with directory := cache.directory.filter (·.name ≠ name) }

def Cache.visit (cache : Cache P) (process : P) (sweep : Sweep)
    (copy : CacheCopy P) (refused : Bool) : Cache P :=
  let deletion : Deletion P :=
    { sweeper := process, current := sweep.current, now := sweep.now,
      copy := copy, alive := cache.alive copy.creator }
  if sweepDeletes sweep.crate (tags process) sweep.current (cache.gone posix)
      copy.name (some deletion.age) ∧ refused = false then
    { cache.remove copy.name with
      deletions := cache.deletions ++ [deletion] }
  else cache

def cacheStep (cache : Cache P) : CacheAction P → Option (Cache P)
  | .clock time => some { cache with clock := time }
  | .exit process => some (cache.exit tags process)
  | .reusePid pid =>
      some { cache with pids := Function.update cache.pids pid true }
  | .copy process source =>
      if cache.alive process ∧ cache.loading process = none ∧
          cache.sweeping process = none then
        some (cache.copy tags type process source)
      else none
  | .abandon process =>
      match cache.loading process with
      | some current =>
          some { cache.remove current with
            loading := Function.update cache.loading process none }
      | none => none
  | .sweep process crate =>
      match cache.loading process with
      | some current =>
          some { cache with
            loading := Function.update cache.loading process none
            sweeping := Function.update cache.sweeping process
              (some
                { crate := crate
                  current := current
                  now := cache.clock
                  remaining := cache.directory.map (·.name) }) }
      | none => none
  | .visit process refused =>
      match cache.sweeping process with
      | some { crate, current, now, remaining := fname :: remaining } =>
          let sweep : Sweep := { crate, current, now, remaining }
          let visited :=
            match cache.directory.find? (·.name = fname) with
            | some copy => cache.visit tags posix process sweep copy refused
            -- gone in the meantime, with nothing left to delete
            | none => cache
          some { visited with
            sweeping := Function.update cache.sweeping process (some sweep) }
      | some { remaining := [], .. } =>
          some { cache with
            sweeping := Function.update cache.sweeping process none }
      | none => none

def cacheSystem : System (Cache P) (CacheAction P) where
  step := cacheStep tags type posix

/-! ## What every run keeps -/

/-- The name of a copy says who made it, in which of its loads. -/
def CacheCopy.Named (counters : P → ℕ) (copy : CacheCopy P) : Prop :=
  ∃ source counter time, counter ≤ counters copy.creator ∧
    copy.name =
      cacheCopyName (copyBase source) (tags copy.creator) counter time type

/-- The file is one that the process has made. -/
def Cache.Made (cache : Cache P) (process : P) (name : FileName) : Prop :=
  ∃ copy ∈ cache.produced, copy.creator = process ∧ copy.name = name

/-- The rules of the sweep, for one deletion. -/
structure Cache.Spared (cache : Cache P) (deletion : Deletion P) : Prop where
  produced : deletion.copy ∈ cache.produced
  current : cache.Made deletion.sweeper deletion.current
  own : deletion.copy.name ≠ deletion.current
  minute : deletion.copy.creator ≠ deletion.sweeper → 60 < deletion.age
  hour : deletion.copy.creator ≠ deletion.sweeper → deletion.alive = true →
    3600 < deletion.age

structure Cache.Inv (cache : Cache P) : Prop where
  named : ∀ copy ∈ cache.produced, copy.Named tags type cache.counters
  nodup : (cache.produced.map CacheCopy.name).Nodup
  listed : ∀ copy ∈ cache.directory, copy ∈ cache.produced
  loading : ∀ process current, cache.loading process = some current →
    cache.Made process current
  sweeping : ∀ process sweep, cache.sweeping process = some sweep →
    cache.Made process sweep.current
  pids : ∀ process pid, cache.alive process = true →
    (tags process).processId = some pid → cache.pids pid = true
  spared : ∀ deletion ∈ cache.deletions, cache.Spared deletion

omit [DecidableEq P] in
theorem Cache.initial_inv (counters : P → ℕ) :
    (Cache.initial counters).Inv tags type where
  named := by simp [Cache.initial]
  nodup := List.nodup_nil
  listed := by simp [Cache.initial]
  loading := by simp [Cache.initial]
  sweeping := by simp [Cache.initial]
  pids := by simp [Cache.initial]
  spared := by simp [Cache.initial]

variable {tags type posix} {cache : Cache P}

omit [DecidableEq P] in
theorem CacheCopy.Named.mono {counters later : P → ℕ} {copy : CacheCopy P}
    (hnamed : copy.Named tags type counters)
    (hle : ∀ process, counters process ≤ later process) :
    copy.Named tags type later := by
  obtain ⟨source, counter, time, hcounter, hname⟩ := hnamed
  exact ⟨source, counter, time, hcounter.trans (hle _), hname⟩

omit [DecidableEq P] in
theorem Cache.Made.mono {later : Cache P} {process : P} {name : FileName}
    (hmade : cache.Made process name)
    (hproduced : ∀ copy ∈ cache.produced, copy ∈ later.produced) :
    later.Made process name := by
  obtain ⟨copy, hcopy, hcreator, hname⟩ := hmade
  exact ⟨copy, hproduced copy hcopy, hcreator, hname⟩

omit [DecidableEq P] in
theorem Cache.Spared.mono {later : Cache P} {deletion : Deletion P}
    (hspared : cache.Spared deletion)
    (hproduced : ∀ copy ∈ cache.produced, copy ∈ later.produced) :
    later.Spared deletion :=
  ⟨hproduced _ hspared.produced, hspared.current.mono hproduced, hspared.own,
    hspared.minute, hspared.hour⟩

/-- An entry for one process, with the others as they were. -/
theorem update_some {α : Type} {entries : P → Option α} {process other : P}
    {entry : Option α} {found : α}
    (hfound : Function.update entries process entry other = some found) :
    (other = process ∧ entry = some found) ∨ entries other = some found := by
  by_cases hother : other = process
  · subst hother
    rw [Function.update_self] at hfound
    exact .inl ⟨rfl, hfound⟩
  · rw [Function.update_of_ne hother] at hfound
    exact .inr hfound

omit [DecidableEq P] in
theorem Cache.mem_remove {name : FileName} {copy : CacheCopy P}
    (hcopy : copy ∈ (cache.remove name).directory) : copy ∈ cache.directory :=
  (List.mem_filter.mp hcopy).1

omit [DecidableEq P] in
/-- The next copy has a name of its own. -/
theorem Cache.Inv.nextCopy_fresh
    (htags : Function.Injective fun process => (tags process).text)
    (hinv : cache.Inv tags type) (process : P) (source : String) :
    (cache.nextCopy tags type process source).name ∉
      cache.produced.map CacheCopy.name := by
  intro hmem
  obtain ⟨copy, hcopy, hsame⟩ := List.mem_map.mp hmem
  obtain ⟨source', counter, time, hcounter, hname⟩ := hinv.named copy hcopy
  rw [hname] at hsame
  obtain ⟨-, htag, hcounters⟩ := cacheCopyName_inj
    (hyphen_notMem_copyBase source') (hyphen_notMem_copyBase source) hsame
  have hcreator : copy.creator = process := htags htag
  rw [hcreator] at hcounter
  omega

theorem Cache.Inv.copy
    (htags : Function.Injective fun process => (tags process).text)
    (hinv : cache.Inv tags type) (process : P) (source : String) :
    (cache.copy tags type process source).Inv tags type := by
  have hgrows : ∀ copy ∈ cache.produced,
      copy ∈ (cache.copy tags type process source).produced :=
    fun copy hcopy => List.mem_append_left _ hcopy
  have hcounts : ∀ other, cache.counters other ≤
      (cache.copy tags type process source).counters other := by
    intro other
    by_cases hother : other = process
    · subst hother
      simp [Cache.copy]
    · simp [Cache.copy, Function.update_of_ne hother]
  have hmade : (cache.copy tags type process source).Made process
      (cache.nextCopy tags type process source).name :=
    ⟨_, List.mem_append_right _ (List.mem_singleton_self _), rfl, rfl⟩
  constructor
  · intro copy hcopy
    rcases List.mem_append.mp hcopy with hold | hnew
    · exact (hinv.named copy hold).mono hcounts
    · rw [List.mem_singleton] at hnew
      subst hnew
      exact ⟨source, cache.counters process + 1, cache.clock,
        by simp [Cache.copy, Cache.nextCopy], rfl⟩
  · have hfresh := hinv.nextCopy_fresh htags process source
    simp only [Cache.copy, List.map_append, List.map_singleton]
    rw [List.nodup_append]
    refine ⟨hinv.nodup, List.nodup_singleton _, ?_⟩
    rintro name hname other hother rfl
    rw [List.mem_singleton] at hother
    exact hfresh (hother ▸ hname)
  · intro copy hcopy
    rcases List.mem_append.mp hcopy with hold | hnew
    · exact hgrows copy (hinv.listed copy hold)
    · exact List.mem_append_right _ hnew
  · intro other current hcurrent
    rcases update_some hcurrent with ⟨rfl, hentry⟩ | hold
    · cases hentry
      exact hmade
    · exact (hinv.loading other current hold).mono hgrows
  · intro other sweep hsweep
    exact (hinv.sweeping other sweep hsweep).mono hgrows
  · exact hinv.pids
  · intro deletion hdeletion
    exact (hinv.spared deletion hdeletion).mono hgrows

theorem Cache.Inv.exit
    (htags : Function.Injective fun process => (tags process).text)
    (hinv : cache.Inv tags type) (process : P) :
    (cache.exit tags process).Inv tags type where
  named := hinv.named
  nodup := hinv.nodup
  listed := hinv.listed
  loading := by
    intro other current hcurrent
    rcases update_some hcurrent with ⟨-, hentry⟩ | hold
    · cases hentry
    · exact hinv.loading other current hold
  sweeping := by
    intro other sweep hsweep
    rcases update_some hsweep with ⟨-, hentry⟩ | hold
    · cases hentry
    · exact hinv.sweeping other sweep hold
  pids := by
    intro other pid halive hpid
    have hother : other ≠ process := by
      rintro rfl
      simp [Cache.exit] at halive
    simp only [Cache.exit, Function.update_of_ne hother] at halive
    have hkept := hinv.pids other pid halive hpid
    unfold Cache.exit
    cases hexited : (tags process).processId with
    | none => exact hkept
    | some exited =>
        have hne : pid ≠ exited := by
          rintro rfl
          apply hother
          apply htags
          cases hown : tags other with
          | random n => simp [hown, ProcessTag.processId] at hpid
          | pid own =>
              cases hleft : tags process with
              | random n => simp [hleft, ProcessTag.processId] at hexited
              | pid left => simp_all [ProcessTag.processId]
        simpa [Function.update_of_ne hne] using hkept
  spared := fun deletion hdeletion =>
    (hinv.spared deletion hdeletion).mono fun _ hcopy => hcopy

omit [DecidableEq P] in
/-- What a sweep deletes, it may delete. -/
theorem Cache.Inv.spared_visit
    (htags : Function.Injective fun process => (tags process).text)
    (hinv : cache.Inv tags type) {process : P} {sweep : Sweep}
    {copy : CacheCopy P} (hmade : cache.Made process sweep.current)
    (hcopy : copy ∈ cache.directory)
    (hdeletes : sweepDeletes sweep.crate (tags process) sweep.current
      (cache.gone posix) copy.name
      (some ((sweep.now : ℤ) - copy.written)) = true) :
    cache.Spared
      { sweeper := process, current := sweep.current, now := sweep.now,
        copy := copy, alive := cache.alive copy.creator } := by
  have hproduced := hinv.listed copy hcopy
  obtain ⟨source, counter, time, -, hname⟩ := hinv.named copy hproduced
  have hage : copy.creator ≠ process →
      3600 < (sweep.now : ℤ) - copy.written ∨
        60 < (sweep.now : ℤ) - copy.written ∧
          cache.alive copy.creator = false := by
    intro hother
    have htag : (tags process).text ≠ (tags copy.creator).text :=
      fun hsame => hother (htags hsame).symm
    rw [hname] at hdeletes
    rcases age_of_sweepDeletes (hyphen_notMem_copyBase source) htag hdeletes
      with hhour | ⟨hminute, pid, hpid, hgone⟩
    · exact .inl hhour
    · refine .inr ⟨hminute, ?_⟩
      by_contra halive
      have hpids := hinv.pids copy.creator pid (by simpa using halive) hpid
      simp [Cache.gone, hpids] at hgone
  refine ⟨hproduced, hmade, ?_, ?_, ?_⟩
  · have hne : copy.name ≠ sweep.current := by
      simp only [sweepDeletes, decide_eq_true_eq] at hdeletes
      exact hdeletes.1
    exact hne
  · intro hother
    rcases hage hother with hhour | ⟨hminute, -⟩
    · exact lt_trans (by decide) hhour
    · exact hminute
  · intro hother halive
    rcases hage hother with hhour | ⟨-, hdead⟩
    · exact hhour
    · exact absurd halive (by simp [hdead])

omit [DecidableEq P] in
theorem Cache.Inv.visit
    (htags : Function.Injective fun process => (tags process).text)
    (hinv : cache.Inv tags type) {process : P} {sweep : Sweep}
    {copy : CacheCopy P} (hmade : cache.Made process sweep.current)
    (hcopy : copy ∈ cache.directory) (refused : Bool) :
    (cache.visit tags posix process sweep copy refused).Inv tags type := by
  unfold Cache.visit
  simp only
  split_ifs with hdeletes
  · have hspared := hinv.spared_visit htags hmade hcopy hdeletes.1
    constructor
    · exact hinv.named
    · exact hinv.nodup
    · exact fun other hother => hinv.listed other (mem_remove hother)
    · exact hinv.loading
    · exact hinv.sweeping
    · exact hinv.pids
    · intro deletion hdeletion
      rcases List.mem_append.mp hdeletion with hold | hnew
      · exact (hinv.spared deletion hold).mono fun _ h => h
      · rw [List.mem_singleton] at hnew
        subst hnew
        exact hspared.mono fun _ h => h
  · exact hinv

theorem cacheStep_inv
    (htags : Function.Injective fun process => (tags process).text)
    (hinv : cache.Inv tags type) {action : CacheAction P} {next : Cache P}
    (hstep : (cacheSystem tags type posix).step cache action = some next) :
    next.Inv tags type := by
  simp only [cacheSystem] at hstep
  cases action with
  | clock time =>
      cases hstep
      exact ⟨hinv.named, hinv.nodup, hinv.listed, hinv.loading, hinv.sweeping,
        hinv.pids, fun d hd => (hinv.spared d hd).mono fun _ h => h⟩
  | exit process =>
      cases hstep
      exact hinv.exit htags process
  | reusePid pid =>
      cases hstep
      refine ⟨hinv.named, hinv.nodup, hinv.listed, hinv.loading, hinv.sweeping,
        ?_, fun d hd => (hinv.spared d hd).mono fun _ h => h⟩
      intro process other halive hother
      have hkept := hinv.pids process other halive hother
      by_cases hsame : other = pid
      · subst hsame
        simp
      · simpa [Function.update_of_ne hsame] using hkept
  | copy process source =>
      simp only [cacheStep] at hstep
      split_ifs at hstep
      cases hstep
      exact hinv.copy htags process source
  | abandon process =>
      simp only [cacheStep] at hstep
      split at hstep
      · cases hstep
        refine ⟨hinv.named, hinv.nodup,
          fun copy hcopy => hinv.listed copy (Cache.mem_remove hcopy), ?_,
          hinv.sweeping, hinv.pids,
          fun d hd => (hinv.spared d hd).mono fun _ h => h⟩
        intro other current hcurrent
        rcases update_some hcurrent with ⟨-, hentry⟩ | hold
        · cases hentry
        · exact hinv.loading other current hold
      · cases hstep
  | sweep process crate =>
      simp only [cacheStep] at hstep
      split at hstep
      · rename_i current hcurrent
        cases hstep
        refine ⟨hinv.named, hinv.nodup, hinv.listed, ?_, ?_, hinv.pids,
          fun d hd => (hinv.spared d hd).mono fun _ h => h⟩
        · intro other name hname
          rcases update_some hname with ⟨-, hentry⟩ | hold
          · cases hentry
          · exact hinv.loading other name hold
        · intro other sweep hsweep
          rcases update_some hsweep with ⟨rfl, hentry⟩ | hold
          · cases hentry
            exact hinv.loading other current hcurrent
          · exact hinv.sweeping other sweep hold
      · cases hstep
  | visit process refused =>
      simp only [cacheStep] at hstep
      split at hstep
      · rename_i crate current now fname remaining hsweep
        have hmade := hinv.sweeping process _ hsweep
        have hvisited : ∀ visited : Cache P, visited.Inv tags type →
            visited.sweeping = cache.sweeping →
            visited.produced = cache.produced →
            ({ visited with
              sweeping := Function.update cache.sweeping process
                (some { crate, current, now, remaining }) } :
                Cache P).Inv tags type := by
          intro visited hvisited hsame hproduced
          refine ⟨hvisited.named, hvisited.nodup, hvisited.listed,
            hvisited.loading, ?_, hvisited.pids,
            fun d hd => (hvisited.spared d hd).mono fun _ h => h⟩
          intro other sweep hother
          rcases update_some hother with ⟨rfl, hentry⟩ | hold
          · cases hentry
            exact hmade.mono fun copy hcopy => hproduced ▸ hcopy
          · exact hvisited.sweeping other sweep (hsame ▸ hold)
        cases hstep
        cases hfind : cache.directory.find? (·.name = fname) with
        | none => exact hvisited cache hinv rfl rfl
        | some copy =>
            have hcopy : copy ∈ cache.directory := List.mem_of_find?_eq_some hfind
            refine hvisited _ (hinv.visit htags hmade hcopy refused) ?_ ?_
            · unfold Cache.visit
              simp only
              split_ifs <;> rfl
            · unfold Cache.visit
              simp only
              split_ifs <;> rfl
      · cases hstep
        refine ⟨hinv.named, hinv.nodup, hinv.listed, hinv.loading, ?_,
          hinv.pids, fun d hd => (hinv.spared d hd).mono fun _ h => h⟩
        intro other sweep hsweep
        rcases update_some hsweep with ⟨-, hentry⟩ | hold
        · cases hentry
        · exact hinv.sweeping other sweep hold
      · cases hstep

end Cache

/-- Among processes with distinct tags no name of a copy is made twice, every
name gives its creator's pid back, and a sweep spares the copy of its own
load, what another process made less than a minute ago, and what a living one
made less than an hour ago. -/
theorem cache_copies {P : Type} [DecidableEq P] (tags : P → ProcessTag)
    (htags : Function.Injective fun process => (tags process).text)
    (type : List Char) (posix : Bool) (counters : P → ℕ)
    (actions : List (CacheAction P)) (cache : Cache P)
    (hrun : (cacheSystem tags type posix).run (Cache.initial counters)
      actions = some cache) :
    (cache.produced.map CacheCopy.name).Nodup ∧
      (∀ copy ∈ cache.produced,
        copyPid copy.name = (tags copy.creator).processId) ∧
      ∀ deletion ∈ cache.deletions, cache.Spared deletion := by
  have hinv : cache.Inv tags type :=
    System.run_invariant
      (fun state action next hstate hstep =>
        cacheStep_inv htags hstate hstep)
      (Cache.initial_inv tags type counters) hrun
  refine ⟨hinv.nodup, ?_, hinv.spared⟩
  intro copy hcopy
  obtain ⟨source, counter, time, -, hname⟩ := hinv.named copy hcopy
  rw [hname]
  exact copyPid_cacheCopyName (hyphen_notMem_copyBase source) _ counter time
    type

/-- Two processes; the second exits, and the first sweeps its copy. -/
def sweptAfterExit : List (CacheAction Bool) :=
  [.clock 100, .copy true "word-bag", .abandon true, .copy true "other",
    .exit true, .clock 200, .copy false "word_bag", .sweep false "word-bag",
    .visit false false]

theorem cache_copies_swept :
    ∃ cache, (cacheSystem (fun p : Bool => if p then .pid 7 else .random 35)
        "so".toList true).run (Cache.initial fun _ => 0) sweptAfterExit =
          some cache ∧
      cache.deletions.length = 1 ∧
      (cache.produced.map CacheCopy.name).Nodup := by
  have hrun : ((cacheSystem (fun p : Bool => if p then .pid 7 else .random 35)
      "so".toList true).run (Cache.initial fun _ => 0) sweptAfterExit).map
        (fun cache => cache.deletions.length) = some 1 := by
    decide +kernel
  obtain ⟨cache, hcache, hone⟩ := Option.map_eq_some_iff.mp hrun
  refine ⟨cache, hcache, hone, ?_⟩
  have htags : Function.Injective fun p : Bool =>
      (if p then ProcessTag.pid 7 else ProcessTag.random 35).text := by
    decide +kernel
  exact (cache_copies _ htags "so".toList true (fun _ => 0) sweptAfterExit
    cache hcache).1

end Rulisp
