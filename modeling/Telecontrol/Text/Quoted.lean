import Telecontrol.Text.Invisible

/-! # Quoted texts

A text in double quotes, in which quotes and backslashes are escaped and so is everything that could
not be seen.

Main statements: `Quoted.encodeChar_of_not_isInvisible` (what can be seen stays as it is) and
`Quoted.isInvisible_encode` (whatever the text was, everything between the quotes can be seen). -/

namespace Telecontrol.Quoted

/-- How a character is written between quotes. -/
def encodeChar (c : Char) : List Char :=
  match c with
  | '"' => ['\\', '"']
  | '\\' => ['\\', '\\']
  | '\n' => ['\\', 'n']
  | '\r' => ['\\', 'r']
  | '\t' => ['\\', 't']
  | '\x00' => ['\\', '0']
  | c =>
    if Invisible.isInvisible c then
      ['\\', 'u', '\x7b'] ++ Nat.toDigits 16 c.toNat ++ ['\x7d']
    else [c]

/-- A character that can be seen is written as it is, unless it is a quote or a backslash. -/
theorem encodeChar_of_not_isInvisible {c : Char} (h : Invisible.isInvisible c = false)
    (hq : c ≠ '"') (hb : c ≠ '\\') : encodeChar c = [c] := by
  unfold encodeChar
  split
  · exact absurd rfl hq
  · exact absurd rfl hb
  -- the others with an escape of their own are controls
  · exact absurd h (by rw [Invisible.isInvisible_of_lt (by decide)]; decide)
  · exact absurd h (by rw [Invisible.isInvisible_of_lt (by decide)]; decide)
  · exact absurd h (by rw [Invisible.isInvisible_of_lt (by decide)]; decide)
  · exact absurd h (by rw [Invisible.isInvisible_of_lt (by decide)]; decide)
  · rw [if_neg (by rw [h]; decide)]

/-- What stands between the quotes. -/
def encode (cs : List Char) : List Char := cs.flatMap encodeChar

/-- A hexadecimal digit can be seen. -/
theorem isInvisible_digitChar {n : Nat} (h : n < 16) :
    Invisible.isInvisible n.digitChar = false := by
  have hplain : ∀ n < 16, 0x20 ≤ n.digitChar.toNat ∧ n.digitChar.toNat ≤ 0x7E := by decide
  exact Invisible.isInvisible_of_plain (hplain n h).1 (hplain n h).2

/-- So can the digits of a number. -/
theorem isInvisible_toDigits (n : Nat) : ∀ c ∈ Nat.toDigits 16 n,
    Invisible.isInvisible c = false := by
  induction n using Nat.strongRecOn with
  | ind n ih =>
    by_cases hn : n < 16
    · rw [Nat.toDigits_of_lt_base hn]
      exact List.forall_mem_singleton.mpr (isInvisible_digitChar hn)
    · have hle : 16 ≤ n := Nat.le_of_not_lt hn
      rw [Nat.toDigits_of_base_le (by decide) hle]
      refine List.forall_mem_append.mpr ⟨ih _ (Nat.div_lt_self (by omega) (by decide)), ?_⟩
      exact List.forall_mem_singleton.mpr (isInvisible_digitChar (Nat.mod_lt n (by decide)))

/-- What the escapes are written with, beside the digits. -/
def marks : List Char := ['\\', '"', 'n', 'r', 't', '0', 'u', '\x7b', '\x7d']

/-- These marks can be seen. -/
theorem isInvisible_of_mem_marks {c : Char} (h : c ∈ marks) : Invisible.isInvisible c = false := by
  have hplain : marks.all (fun d => 0x20 ≤ d.toNat && d.toNat ≤ 0x7E) = true := by decide
  have hc := Bool.and_eq_true_iff.mp (List.all_eq_true.mp hplain c h)
  exact Invisible.isInvisible_of_plain (of_decide_eq_true hc.1) (of_decide_eq_true hc.2)

/-- Everything that a character is written with can be seen. -/
theorem isInvisible_encodeChar (c : Char) : ∀ d ∈ encodeChar c,
    Invisible.isInvisible d = false := by
  unfold encodeChar
  split
  -- six characters have an escape of their own
  iterate 6 exact fun d hd => isInvisible_of_mem_marks (List.subset_def.mp (by decide) hd)
  split
  · intro d hd
    rcases List.mem_append.mp hd with hd | hd
    · rcases List.mem_append.mp hd with hd | hd
      · exact isInvisible_of_mem_marks (List.subset_def.mp (by decide) hd)
      · exact isInvisible_toDigits _ d hd
    · exact isInvisible_of_mem_marks (List.subset_def.mp (by decide) hd)
  · rename_i hc
    exact List.forall_mem_singleton.mpr (Bool.not_eq_true _ ▸ hc)

/-- Whatever the text was, everything between the quotes can be seen. -/
theorem isInvisible_encode (cs : List Char) : ∀ d ∈ encode cs, Invisible.isInvisible d = false :=
  fun d hd => by
    obtain ⟨c, -, hd⟩ := List.mem_flatMap.mp hd
    exact isInvisible_encodeChar c d hd

/-- A text in quotes. -/
def text (s : String) : String := String.ofList ('"' :: encode s.toList ++ ['"'])

end Telecontrol.Quoted
