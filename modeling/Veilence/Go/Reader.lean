import Mathlib

/-!
# Readers

A reader in the sense of {lit}`io.Reader`, by what its next reads return.  A packet is what one
read returns to a caller with enough room, with the error that comes with its last byte; a caller
with less room gets the packet in pieces.  A packet may be empty, and {lit}`EOF` may come with the
last bytes or after them.

Main results:

- Theorem {lit}`Reader.body_read`: a read takes its bytes from the front of the body.
- Theorem {lit}`ioCopy_spec`: what {lit}`io.Copy` takes from a limited reader.
-/

namespace Veilence
namespace Go

/-- The error of a read. -/
inductive ReadError where
  | eof
  | other
deriving DecidableEq

/-- Bytes and the error that comes with the last one. -/
structure Packet (α : Type) where
  bytes : List α
  err : Option ReadError
deriving DecidableEq

/-- A reader: the packets that it returns before {lit}`EOF`. -/
abbrev Reader (α : Type) := List (Packet α)

namespace Reader

variable {α : Type}

/-- {lit}`Read` into a buffer of the given length: the bytes, the error, and the reader after
it.  After {lit}`EOF` there is nothing but {lit}`EOF`. -/
def read (len : Nat) : Reader α → List α × Option ReadError × Reader α
  | [] => ([], some .eof, [])
  | p :: ps =>
      if p.bytes.length ≤ len then (p.bytes, p.err, if p.err = some .eof then [] else ps)
      else (p.bytes.take len, none, ⟨p.bytes.drop len, p.err⟩ :: ps)

/-- Everything that can be read. -/
def body : Reader α → List α
  | [] => []
  | p :: ps => p.bytes ++ if p.err = some .eof then [] else body ps

/-- A bound on the number of reads. -/
def size (r : Reader α) : Nat :=
  (r.map fun p => p.bytes.length + 1).sum

variable {len : Nat} {r : Reader α} {p : Packet α} {ps : Reader α}

/-- A packet for which there is room. -/
theorem read_cons_of_le (hlen : p.bytes.length ≤ len) :
    read len (p :: ps) = (p.bytes, p.err, if p.err = some .eof then [] else ps) :=
  if_pos hlen

/-- A packet that is cut. -/
theorem read_cons_of_not_le (hlen : ¬p.bytes.length ≤ len) :
    read len (p :: ps) = (p.bytes.take len, none, ⟨p.bytes.drop len, p.err⟩ :: ps) :=
  if_neg hlen

/-- A read takes its bytes from the front of the body. -/
theorem body_read (len : Nat) (r : Reader α) : r.body = (r.read len).1 ++ body (r.read len).2.2 := by
  cases r with
  | nil => rfl
  | cons p ps =>
      by_cases hlen : p.bytes.length ≤ len
      · rw [read_cons_of_le hlen, body]
        congr 1
        split_ifs <;> rfl
      · rw [read_cons_of_not_le hlen, body, body, ← List.append_assoc, List.take_append_drop]

/-- A read returns no more than there is room for. -/
theorem length_read_le (len : Nat) (r : Reader α) : (r.read len).1.length ≤ len := by
  cases r with
  | nil => exact Nat.zero_le len
  | cons p ps =>
      by_cases hlen : p.bytes.length ≤ len
      · rwa [read_cons_of_le hlen]
      · rw [read_cons_of_not_le hlen]
        exact List.length_take_le len p.bytes

/-- After {lit}`EOF` there is nothing left. -/
theorem read_eof (heof : (r.read len).2.1 = some .eof) : (r.read len).2.2 = [] := by
  cases r with
  | nil => rfl
  | cons p ps =>
      by_cases hlen : p.bytes.length ≤ len
      · rw [read_cons_of_le hlen] at heof ⊢
        exact if_pos heof
      · rw [read_cons_of_not_le hlen] at heof
        exact nomatch heof

/-- A read without an error makes progress. -/
theorem size_read_lt (hlen : 0 < len) (hok : (r.read len).2.1 = none) :
    size (r.read len).2.2 < size r := by
  cases r with
  | nil => exact nomatch hok
  | cons p ps =>
      by_cases hroom : p.bytes.length ≤ len
      · rw [read_cons_of_le hroom] at hok ⊢
        change p.err = none at hok
        simp [hok, size]
      · rw [read_cons_of_not_le hroom]
        simp only [size, List.map_cons, List.sum_cons, List.length_drop]
        omega

end Reader

/-! ## Copying from a limited reader -/

variable {α : Type}

/-- What {lit}`io.Copy` has written, whether it returns an error, and the reader after it. -/
structure Copied (α : Type) where
  written : List α
  failed : Bool
  rest : Reader α

/-- The loop of {lit}`io.Copy` with a buffer over a {lit}`LimitedReader`, with the number of bytes
that this one still lets through.  The first argument bounds the number of rounds. -/
def copyLoop (buf : Nat) : Nat → Nat → Reader α → Copied α
  | 0, _, r => ⟨[], false, r⟩
  | fuel + 1, n, r =>
      if n = 0 then ⟨[], false, r⟩
      else
        match r.read (min buf n) with
        | (bytes, some .eof, rest) => ⟨bytes, false, rest⟩
        | (bytes, some .other, rest) => ⟨bytes, true, rest⟩
        | (bytes, none, rest) =>
            let copied := copyLoop buf fuel (n - bytes.length) rest
            { copied with written := bytes ++ copied.written }

/-- {lit}`io.Copy` of an {lit}`io.LimitReader` into a file that takes everything. -/
def ioCopy (n : Nat) (r : Reader α) : Copied α :=
  copyLoop (max 1 (min (32 * 1024) n)) (r.size + 1) n r

/-- What the loop has done when it ends. -/
structure CopySpec (n : Nat) (r : Reader α) (c : Copied α) : Prop where
  body : r.body = c.written ++ c.rest.body
  le : c.written.length ≤ n
  complete : c.failed = false → c.written.length = n ∨ c.rest = []

/-- The loop ends with the limit, with {lit}`EOF` or with an error. -/
theorem copyLoop_spec {buf : Nat} (hbuf : 0 < buf) {fuel n : Nat} {r : Reader α}
    (hfuel : r.size < fuel) : CopySpec n r (copyLoop buf fuel n r) := by
  induction fuel generalizing n r with
  | zero => exact absurd hfuel (Nat.not_lt_zero _)
  | succ fuel ih =>
      unfold copyLoop
      by_cases hn : n = 0
      · rw [if_pos hn]
        exact ⟨rfl, Nat.zero_le n, fun _ => Or.inl hn.symm⟩
      · rw [if_neg hn]
        have hbody := Reader.body_read (min buf n) r
        have hle := (Reader.length_read_le (min buf n) r).trans (Nat.min_le_right buf n)
        obtain ⟨⟨bytes, err, rest⟩, hread⟩ : ∃ result, r.read (min buf n) = result := ⟨_, rfl⟩
        rw [hread] at hbody hle ⊢
        cases err with
        | none =>
            have hprogress : rest.size < r.size := by
              have hok : (r.read (min buf n)).2.1 = none := by rw [hread]
              have hlt := Reader.size_read_lt (by omega) hok
              rwa [hread] at hlt
            have hrest := ih (n := n - bytes.length) (hprogress.trans_le (Nat.le_of_lt_succ hfuel))
            refine ⟨?_, ?_, ?_⟩
            · rw [hbody, hrest.body]
              exact (List.append_assoc _ _ _).symm
            · have hlater := hrest.le
              simp only [List.length_append] at hle ⊢
              omega
            · intro hok
              rcases hrest.complete hok with hlength | hdone
              · left
                simp only [List.length_append] at hle ⊢
                omega
              · exact Or.inr hdone
        | some e =>
            cases e with
            | eof =>
                have heof : (r.read (min buf n)).2.1 = some .eof := by rw [hread]
                have hdone := Reader.read_eof heof
                rw [hread] at hdone
                exact ⟨hbody, hle, fun _ => Or.inr hdone⟩
            | other => exact ⟨hbody, hle, fun hok => nomatch hok⟩

/-- {lit}`io.Copy` takes bytes from the front of the body, at most as many as the limit lets
through, and fewer only at the end or after an error. -/
theorem ioCopy_spec (n : Nat) (r : Reader α) : CopySpec n r (ioCopy n r) :=
  copyLoop_spec (lt_of_lt_of_le Nat.one_pos (Nat.le_max_left _ _)) (Nat.lt_succ_self _)

end Go
end Veilence
