import Mathlib.Algebra.BigOperators.Group.List.Basic
import Mathlib.Algebra.GroupWithZero.Nat
import Mathlib.Data.Nat.Notation
import Mathlib.Tactic.SplitIfs

/-!
# The captured output of a sandboxed run

`CappedStream::write_vectored` on the two streams that share one byte budget,
and what the two captures hold together: the first bytes written on either,
up to the budget.
-/

namespace Rulisp

namespace Wasi

abbrev Bytes := List UInt8

/-- The `Errno`s that the sandbox answers itself, and those of the host. -/
inductive Errno
  | nospc
  | mfile
  | rofs
  | acces
  | other (code : ℕ)
  deriving DecidableEq, Repr

inductive Stream
  | stdout
  | stderr
  deriving DecidableEq, Repr

/-- stdout and stderr, captured under one byte budget. -/
structure Captured where
  stdout : Bytes
  stderr : Bytes
  cap : ℕ
  deriving DecidableEq, Repr

def Captured.new (cap : ℕ) : Captured where
  stdout := []
  stderr := []
  cap := cap

section Writes

variable (c : Captured) (stream : Stream)

def Captured.target : Bytes :=
  match stream with
  | .stdout => c.stdout
  | .stderr => c.stderr

def Captured.setTarget (target : Bytes) : Captured :=
  match stream with
  | .stdout => { c with stdout := target }
  | .stderr => { c with stderr := target }

/-- `c.cap.saturating_sub(c.stdout.len() + c.stderr.len())`. -/
def Captured.room : ℕ := c.cap - (c.stdout.length + c.stderr.length)

/-- The loop of `write_vectored` over its buffers. -/
def appendBufs (room : ℕ) : ℕ → Bytes → List Bytes → ℕ × Bytes
  | n, target, [] => (n, target)
  | n, target, b :: rest =>
      let take := min (room - n) b.length
      if n + take = room then (n + take, target ++ b.take take)
      else appendBufs room (n + take) (target ++ b.take take) rest

/-- `CappedStream::write_vectored`. -/
def Captured.writeVectored (bufs : List Bytes) :
    Captured × Except Errno ℕ :=
  let total := (bufs.map List.length).sum
  if total = 0 then (c, .ok 0)
  else if c.room = 0 then (c, .error .nospc)
  else
    let (n, target) := appendBufs c.room 0 (c.target stream) bufs
    (c.setTarget stream target, .ok n)

end Writes

/-! ## One write -/

section Lemmas

variable {c : Captured} {stream other : Stream}

@[simp] theorem Captured.setTarget_cap (target : Bytes) :
    (c.setTarget stream target).cap = c.cap := by
  cases stream <;> rfl

theorem Captured.target_setTarget (target : Bytes) :
    (c.setTarget stream target).target other =
      if other = stream then target else c.target other := by
  cases stream <;> cases other <;> rfl

theorem appendBufs_eq (room n : ℕ) (target : Bytes) (bufs : List Bytes)
    (hn : n ≤ room) :
    appendBufs room n target bufs =
      (min room (n + bufs.flatten.length),
        target ++ bufs.flatten.take (room - n)) := by
  induction bufs generalizing n target with
  | nil => simp [appendBufs, hn]
  | cons b rest ih =>
      have hlength : (b ++ rest.flatten).length =
          b.length + rest.flatten.length := List.length_append
      simp only [appendBufs, List.flatten_cons, hlength]
      split_ifs with hfull
      · have hroom : room - n ≤ b.length := by omega
        rw [Nat.min_eq_left hroom, List.take_append_of_le_length hroom]
        congr 1
        omega
      · have hroom : b.length < room - n := by omega
        rw [Nat.min_eq_right (Nat.le_of_lt hroom), ih _ _ (by omega),
          List.take_length, List.take_append,
          List.take_of_length_le (Nat.le_of_lt hroom),
          List.append_assoc]
        congr 1
        · omega
        · congr 3
          omega

/-- A write keeps what fits, and is refused when nothing does. -/
theorem Captured.writeVectored_eq (bufs : List Bytes) :
    c.writeVectored stream bufs =
      (c.setTarget stream
          (c.target stream ++ bufs.flatten.take c.room),
        if bufs.flatten.length = 0 then .ok 0
        else if c.room = 0 then .error .nospc
        else .ok (min c.room bufs.flatten.length)) := by
  have hsame : c.setTarget stream (c.target stream) = c := by
    cases stream <;> rfl
  have htotal : (bufs.map List.length).sum = bufs.flatten.length :=
    List.length_flatten.symm
  unfold Captured.writeVectored
  simp only [htotal]
  split_ifs with hnone hfull
  · rw [List.length_eq_zero_iff.mp hnone, List.take_nil, List.append_nil,
      hsame]
  · rw [hfull, List.take_zero, List.append_nil, hsame]
  · rw [appendBufs_eq _ _ _ _ (Nat.zero_le _)]
    simp

end Lemmas

/-! ## Everything written, under the budget -/

/-- The bytes of a write, each with its stream. -/
def tagged (stream : Stream) (bytes : Bytes) : List (Stream × UInt8) :=
  bytes.map fun byte => (stream, byte)

/-- What one stream has of the bytes written on both. -/
def project (stream : Stream) (written : List (Stream × UInt8)) : Bytes :=
  (written.filter fun entry => entry.1 = stream).map Prod.snd

/-- The captures hold the first bytes written on either stream. -/
def Captured.Keeps (c : Captured) (written : List (Stream × UInt8)) : Prop :=
  ∀ stream, c.target stream = project stream (written.take c.cap)

section Keeps

variable {c : Captured} {stream other : Stream}
  {written : List (Stream × UInt8)}

@[simp] theorem project_append (before after : List (Stream × UInt8)) :
    project stream (before ++ after) =
      project stream before ++ project stream after := by
  simp [project]

theorem project_tagged (bytes : Bytes) :
    project stream (tagged other bytes) =
      if stream = other then bytes else [] := by
  induction bytes with
  | nil => simp [project, tagged]
  | cons byte rest ih =>
      simp only [project, tagged, List.map_cons, List.filter_cons] at ih ⊢
      split_ifs at ih ⊢ with heq hother hother
      · rw [List.map_cons, ih]
      · simp_all
      · simp_all
      · exact ih

theorem tagged_take (bytes : Bytes) (n : ℕ) :
    tagged stream (bytes.take n) = (tagged stream bytes).take n := by
  simp [tagged]

@[simp] theorem tagged_length (bytes : Bytes) :
    (tagged stream bytes).length = bytes.length := by
  simp [tagged]

/-- Every byte is of one of the two streams. -/
theorem project_lengths (written : List (Stream × UInt8)) :
    (project .stdout written).length + (project .stderr written).length =
      written.length := by
  induction written with
  | nil => rfl
  | cons entry rest ih =>
      obtain ⟨stream, byte⟩ := entry
      simp only [project, List.length_map] at ih ⊢
      cases stream <;> simp <;> omega

theorem Captured.new_keeps (cap : ℕ) : (Captured.new cap).Keeps [] := by
  intro stream
  cases stream <;> simp [Captured.new, Captured.target, project]

theorem Captured.Keeps.length (hkeeps : c.Keeps written) :
    c.stdout.length + c.stderr.length = min c.cap written.length := by
  have hout := hkeeps .stdout
  have herr := hkeeps .stderr
  simp only [Captured.target] at hout herr
  rw [hout, herr, project_lengths, List.length_take]

theorem Captured.Keeps.room (hkeeps : c.Keeps written) :
    c.room = c.cap - written.length := by
  have hlength := hkeeps.length
  unfold Captured.room
  omega

/-- The write of more bytes. -/
theorem Captured.Keeps.write (hkeeps : c.Keeps written)
    (bufs : List Bytes) :
    (c.writeVectored stream bufs).1.Keeps
      (written ++ tagged stream bufs.flatten) := by
  rw [Captured.writeVectored_eq]
  intro other
  simp only [Captured.target_setTarget, Captured.setTarget_cap,
    List.take_append, project_append, ← tagged_take, project_tagged]
  split_ifs with heq
  · subst heq
    rw [hkeeps other, hkeeps.room]
  · rw [hkeeps other, List.append_nil]

end Keeps

end Wasi

end Rulisp
