import Mathlib

/-!
# Lib/Utf8 — byte strings, and the runes a Go program reads from them

A Go string is a list of bytes.  `decodeRune` reads the rune at its head, by the table of the Go standard
library: the first byte says how many continuation bytes follow and which range the first of them lies in.
A byte that begins no rune is read as the replacement character and passed over alone (`runes`), and
`validString` is the test that this never happens.

A byte below 128 is always a rune of its own (`mem_runes`): no longer rune contains one.
-/

namespace Utf8

open List

/-- A byte. -/
abbrev Byte := Fin 256

/-- A Go string. -/
abbrev GoString := List Byte

/-- The byte of a number. -/
def byte (n : ℕ) : Byte := Fin.ofNat 256 n

/-- A string literal of the source, all ASCII. -/
def ascii (s : String) : GoString := s.toList.map fun c => byte c.toNat

/-- For the first byte of a longer rune: how many bytes continue it, and the range of the first of them. -/
def accept (b : ℕ) : Option (ℕ × ℕ × ℕ) :=
  if b < 0xC2 then none
  else if b < 0xE0 then some (1, 0x80, 0xBF)
  else if b = 0xE0 then some (2, 0xA0, 0xBF)
  else if b = 0xED then some (2, 0x80, 0x9F)
  else if b < 0xF0 then some (2, 0x80, 0xBF)
  else if b = 0xF0 then some (3, 0x90, 0xBF)
  else if b < 0xF4 then some (3, 0x80, 0xBF)
  else if b = 0xF4 then some (3, 0x80, 0x8F)
  else none

/-- `utf8.DecodeRuneInString`: the rune at the head and its width, if one is there. -/
def decodeRune : GoString → Option (ℕ × ℕ)
  | [] => none
  | b :: rest =>
    if b.val < 0x80 then some (b.val, 1)
    else
      match accept b.val with
      | none => none
      | some (n, lo, hi) =>
        let cont := rest.take n
        if cont.length = n ∧ (∀ c ∈ cont.head?, lo ≤ c.val ∧ c.val ≤ hi) ∧
            (∀ c ∈ cont.tail, 0x80 ≤ c.val ∧ c.val ≤ 0xBF) then
          some (cont.foldl (fun r c => r * 64 + c.val % 64) (b.val % 2 ^ (6 - n)), n + 1)
        else none

/-- `utf8.RuneError` -/
def runeError : ℕ := 0xFFFD

/-- The runes of a string, given steps enough. -/
def runesAux : ℕ → GoString → List ℕ
  | 0, _ => []
  | _ + 1, [] => []
  | fuel + 1, b :: rest =>
    match decodeRune (b :: rest) with
    | some (r, width) => r :: runesAux fuel ((b :: rest).drop width)
    | none => runeError :: runesAux fuel rest

/-- `[]rune(s)` -/
def runes (s : GoString) : List ℕ := runesAux s.length s

/-- Nothing in the string is not a rune, given steps enough. -/
def validAux : ℕ → GoString → Bool
  | _, [] => true
  | 0, _ :: _ => false
  | fuel + 1, b :: rest =>
    match decodeRune (b :: rest) with
    | some (_, width) => validAux fuel ((b :: rest).drop width)
    | none => false

/-- `utf8.ValidString` -/
def validString (s : GoString) : Bool := validAux s.length s

theorem le_of_accept {b n lo hi : ℕ} (h : accept b = some (n, lo, hi)) : 0x80 ≤ lo := by
  unfold accept at h
  split_ifs at h
  all_goals
    simp only [Option.some.injEq, Prod.mk.injEq] at h
    omega

/-- The bytes of a longer rune are all above 127. -/
theorem decodeRune_cases {b : Byte} {rest : GoString} {r width : ℕ}
    (h : decodeRune (b :: rest) = some (r, width)) :
    (b.val < 0x80 ∧ r = b.val ∧ width = 1) ∨
      (0x80 ≤ b.val ∧ ∃ n, width = n + 1 ∧ ∀ c ∈ rest.take n, 0x80 ≤ c.val) := by
  rw [decodeRune] at h
  split at h
  next hascii =>
    obtain ⟨rfl, rfl⟩ := Prod.mk.inj (Option.some.inj h)
    exact .inl ⟨hascii, rfl, rfl⟩
  next hlong =>
    refine .inr ⟨not_lt.mp hlong, ?_⟩
    split at h
    next => cases h
    next n lo hi haccept =>
      dsimp only at h
      split at h
      next hcont =>
        obtain ⟨-, hhead, htail⟩ := hcont
        refine ⟨n, (Prod.mk.inj (Option.some.inj h)).2.symm, fun c hc => ?_⟩
        generalize rest.take n = cont at hc hhead htail
        cases cont with
        | nil => cases hc
        | cons d cont =>
          rcases mem_cons.mp hc with rfl | hc
          · exact (le_of_accept haccept).trans (hhead c rfl).1
          · exact (htail c hc).1
      next => cases h

/-- **A byte below 128 is a rune of its own**, wherever it stands. -/
theorem mem_runesAux {b : Byte} (hb : b.val < 0x80) {fuel : ℕ} {s : GoString} (hfuel : s.length ≤ fuel)
    (hmem : b ∈ s) : b.val ∈ runesAux fuel s := by
  induction fuel generalizing s with
  | zero =>
    obtain rfl := eq_nil_of_length_eq_zero (Nat.le_zero.mp hfuel)
    cases hmem
  | succ fuel ih =>
    cases s with
    | nil => cases hmem
    | cons c rest =>
      have hrest : rest.length ≤ fuel := Nat.succ_le_succ_iff.mp hfuel
      rw [runesAux]
      cases hdecode : decodeRune (c :: rest) with
      | none =>
        rcases mem_cons.mp hmem with rfl | hmem
        · rw [decodeRune, if_pos hb] at hdecode
          cases hdecode
        · exact .tail _ (ih hrest hmem)
      | some rune =>
        obtain ⟨r, width⟩ := rune
        obtain ⟨-, rfl, rfl⟩ | ⟨hlong, n, rfl, hcont⟩ := decodeRune_cases hdecode
        · rcases mem_cons.mp hmem with rfl | hmem
          · exact .head _
          · exact .tail _ (ih hrest hmem)
        · refine mem_cons_of_mem _ (ih ?_ ?_)
          · rw [drop_succ_cons, length_drop]
            omega
          · rw [drop_succ_cons]
            rcases mem_cons.mp hmem with rfl | hmem
            · omega
            · rw [← take_append_drop n rest] at hmem
              rcases mem_append.mp hmem with hmem | hmem
              · exact absurd (hcont b hmem) (by omega)
              · exact hmem

theorem mem_runes {b : Byte} (hb : b.val < 0x80) {s : GoString} (hmem : b ∈ s) : b.val ∈ runes s :=
  mem_runesAux hb le_rfl hmem

end Utf8
