import Mathlib

/-!
# Lib/Text — numerals and lines

Text is a list of characters.  Numbers are printed and read digit by digit, in any base up to sixteen, and
a text is cut into lines, a line at its first separator, and stripped of the white space around it, each
as the Go standard library does it.

Every printer here is undone by its reader: `parseUint_map_digitChar`, `parseInt_printInt`,
`lines_unlines`, `cut_append`, `trimSpace_space`.
-/

namespace Text

open List

/-! ### Digits -/

/-- The digit of a value below sixteen. -/
def digitChar (d : ℕ) : Char := if d < 10 then Char.ofNat (48 + d) else Char.ofNat (87 + d)

/-- The value of a digit, up to base thirty-six and in either case. -/
def digitValue (c : Char) : Option ℕ :=
  if 48 ≤ c.toNat ∧ c.toNat ≤ 57 then some (c.toNat - 48)
  else if 97 ≤ c.toNat ∧ c.toNat ≤ 122 then some (c.toNat - 87)
  else if 65 ≤ c.toNat ∧ c.toNat ≤ 90 then some (c.toNat - 55)
  else none

variable {d k n b bits : ℕ} {ds : List ℕ} {t a : List Char} {c sep : Char}

theorem digitValue_digitChar (h : d < 16) : digitValue (digitChar d) = some d := by
  interval_cases d <;> rfl

/-- The number that digits stand for, the first weighing most. -/
def value (b : ℕ) (ds : List ℕ) : ℕ := ds.foldl (fun n d => n * b + d) 0

theorem value_append_singleton (b : ℕ) (ds : List ℕ) (d : ℕ) :
    value b (ds ++ [d]) = value b ds * b + d := by
  simp [value]

/-- The last so many digits of a number. -/
def fixed (b : ℕ) : ℕ → ℕ → List ℕ
  | 0, _ => []
  | k + 1, n => fixed b k (n / b) ++ [n % b]

theorem value_fixed (b : ℕ) (h : n < b ^ k) : value b (fixed b k n) = n := by
  induction k generalizing n with
  | zero =>
    rw [pow_zero, Nat.lt_one_iff] at h
    rw [h, fixed, value, foldl_nil]
  | succ k ih =>
    have hdiv : n / b < b ^ k := Nat.div_lt_of_lt_mul (by rwa [pow_succ'] at h)
    rw [fixed, value_append_singleton, ih hdiv, mul_comm, Nat.div_add_mod]

theorem fixed_ne_nil (b n : ℕ) (hk : 0 < k) : fixed b k n ≠ [] := by
  cases k with
  | zero => cases hk
  | succ k => simp [fixed]

theorem lt_of_mem_fixed (hb : 0 < b) (h : d ∈ fixed b k n) : d < b := by
  induction k generalizing n with
  | zero => cases h
  | succ k ih =>
    rcases mem_append.mp h with h | h
    · exact ih h
    · rw [mem_singleton.mp h]
      exact Nat.mod_lt _ hb

/-- The digits of a number without leading zeros, given steps enough. -/
def digitsAux (b : ℕ) : ℕ → ℕ → List ℕ
  | 0, n => [n]
  | k + 1, n => if n < b then [n] else digitsAux b k (n / b) ++ [n % b]

/-- The digits of a number. -/
def digits (b n : ℕ) : List ℕ := digitsAux b n n

theorem value_digitsAux (b k n : ℕ) : value b (digitsAux b k n) = n := by
  induction k generalizing n with
  | zero => simp [digitsAux, value]
  | succ k ih =>
    unfold digitsAux
    split
    · simp [value]
    · rw [value_append_singleton, ih, mul_comm, Nat.div_add_mod]

theorem value_digits (b n : ℕ) : value b (digits b n) = n := value_digitsAux b n n

theorem lt_of_mem_digitsAux (hb : 2 ≤ b) (hn : n ≤ k) (h : d ∈ digitsAux b k n) : d < b := by
  induction k generalizing n with
  | zero =>
    obtain rfl := mem_singleton.mp h
    omega
  | succ k ih =>
    unfold digitsAux at h
    split at h
    · rw [mem_singleton.mp h]
      assumption
    · rcases mem_append.mp h with h | h
      · have hless : n / b < n := Nat.div_lt_self (by omega) (by omega)
        exact ih (by omega) h
      · rw [mem_singleton.mp h]
        exact Nat.mod_lt _ (by omega)

theorem lt_of_mem_digits (hb : 2 ≤ b) (h : d ∈ digits b n) : d < b :=
  lt_of_mem_digitsAux hb le_rfl h

theorem digitsAux_ne_nil (b k n : ℕ) : digitsAux b k n ≠ [] := by
  cases k with
  | zero => simp [digitsAux]
  | succ k =>
    unfold digitsAux
    split <;> simp

theorem digits_ne_nil (b n : ℕ) : digits b n ≠ [] := digitsAux_ne_nil b n n

/-! ### Numbers -/

/-- The value of a digit in a base. -/
def digitIn (b : ℕ) (c : Char) : Option ℕ := (digitValue c).filter (· < b)

/-- Read an unsigned number of so many bits; an empty text, another character or a larger number is an
error. -/
def parseUint (b bits : ℕ) (t : List Char) : Option ℕ :=
  if t = [] then none
  else ((t.mapM (digitIn b)).map (value b)).filter (· < 2 ^ bits)

theorem mapM_digitIn (hb : b ≤ 16) (h : ∀ d ∈ ds, d < b) :
    (ds.map digitChar).mapM (digitIn b) = some ds := by
  induction ds with
  | nil => rfl
  | cons d ds ih =>
    rw [forall_mem_cons] at h
    rw [map_cons, mapM_cons, ih h.2, digitIn, digitValue_digitChar (by omega),
      Option.filter_some_pos (by simpa using h.1)]
    rfl

/-- **Digits printed are read back.** -/
theorem parseUint_map_digitChar (hb : b ≤ 16) (hne : ds ≠ []) (h : ∀ d ∈ ds, d < b)
    (hv : value b ds < 2 ^ bits) :
    parseUint b bits (ds.map digitChar) = some (value b ds) := by
  rw [parseUint, if_neg (by simpa using hne), mapM_digitIn hb h]
  simp [hv]

/-- Print a decimal number. -/
def printNat (n : ℕ) : List Char := (digits 10 n).map digitChar

def printInt : ℤ → List Char
  | .ofNat n => printNat n
  | .negSucc n => '-' :: printNat (n + 1)

/-- Read a signed decimal number of so many bits. -/
def parseInt (bits : ℕ) : List Char → Option ℤ
  | '-' :: t => ((parseUint 10 bits t).filter (· ≤ 2 ^ (bits - 1))).map fun n => -(n : ℤ)
  | '+' :: t => ((parseUint 10 bits t).filter (· < 2 ^ (bits - 1))).map fun n => (n : ℤ)
  | t => ((parseUint 10 bits t).filter (· < 2 ^ (bits - 1))).map fun n => (n : ℤ)

theorem parseUint_printNat (h : n < 2 ^ bits) :
    parseUint 10 bits (printNat n) = some n := by
  have hread : parseUint 10 bits (printNat n) = some (value 10 (digits 10 n)) :=
    parseUint_map_digitChar (by decide) (digits_ne_nil 10 n) (fun d => lt_of_mem_digits (by decide))
      (by rwa [value_digits])
  rwa [value_digits] at hread

theorem isDigit_of_mem_printNat (h : c ∈ printNat n) : c.isDigit := by
  obtain ⟨d, hd, rfl⟩ := mem_map.mp h
  have hlt := lt_of_mem_digits (by decide) hd
  interval_cases d <;> decide

/-- A number does not start with a sign. -/
theorem printNat_head (h : printNat n = c :: t) : c ≠ '-' ∧ c ≠ '+' := by
  have hdigit := isDigit_of_mem_printNat (n := n) (h ▸ mem_cons_self)
  exact ⟨fun hc => absurd (hc ▸ hdigit) (by decide), fun hc => absurd (hc ▸ hdigit) (by decide)⟩

theorem printNat_ne_nil (n : ℕ) : printNat n ≠ [] := by
  simpa [printNat] using digits_ne_nil 10 n

/-- **A number printed is read back.** -/
theorem parseInt_printInt (hbits : 0 < bits) {z : ℤ} (hlo : -2 ^ (bits - 1) ≤ z)
    (hhi : z < 2 ^ (bits - 1)) : parseInt bits (printInt z) = some z := by
  have hpow : (2 : ℕ) ^ bits = 2 ^ (bits - 1) * 2 := by
    rw [← pow_succ, Nat.sub_add_cancel hbits]
  have hcast : ((2 ^ (bits - 1) : ℕ) : ℤ) = 2 ^ (bits - 1) := by push_cast; rfl
  cases z with
  | negSucc n =>
    have hn : n + 1 ≤ 2 ^ (bits - 1) := by
      rw [← hcast] at hlo
      omega
    rw [printInt, parseInt, parseUint_printNat (by omega), Option.filter_some_pos (by simpa using hn)]
    rfl
  | ofNat n =>
    have hn : n < 2 ^ (bits - 1) := by
      rw [← hcast] at hhi
      exact Int.ofNat_lt.mp hhi
    have hread : parseInt bits (printNat n) =
        ((parseUint 10 bits (printNat n)).filter (· < 2 ^ (bits - 1))).map fun n => (n : ℤ) := by
      unfold parseInt
      split
      next t ht => exact absurd rfl (printNat_head ht).1
      next t ht => exact absurd rfl (printNat_head ht).2
      · rfl
    rw [printInt, hread, parseUint_printNat (by omega), Option.filter_some_pos (by simpa using hn)]
    rfl

/-! ### Lines -/

/-- The white space of Unicode. -/
def isSpace (c : Char) : Bool :=
  c.toNat ∈ [0x09, 0x0A, 0x0B, 0x0C, 0x0D, 0x20, 0x85, 0xA0, 0x1680, 0x2000, 0x2001, 0x2002, 0x2003,
    0x2004, 0x2005, 0x2006, 0x2007, 0x2008, 0x2009, 0x200A, 0x2028, 0x2029, 0x202F, 0x205F, 0x3000]

/-- A text without the white space around it. -/
def trimSpace (t : List Char) : List Char :=
  ((t.dropWhile isSpace).reverse.dropWhile isSpace).reverse

/-- A text that neither starts nor ends with white space. -/
def Trimmed (t : List Char) : Prop :=
  (∀ c ∈ t.head?, isSpace c = false) ∧ ∀ c ∈ t.getLast?, isSpace c = false

instance (t : List Char) : Decidable (Trimmed t) :=
  decidable_of_iff (t.head?.all (!isSpace ·) = true ∧ t.getLast?.all (!isSpace ·) = true) (by
    simp only [Trimmed, Option.all_eq_true, Option.mem_def, Bool.not_eq_true'])

theorem dropWhile_of_head (h : ∀ c ∈ t.head?, isSpace c = false) :
    t.dropWhile isSpace = t := by
  cases t with
  | nil => rfl
  | cons c t => exact dropWhile_cons_of_neg (by simp [h c rfl])

theorem trimSpace_of_trimmed (h : Trimmed t) : trimSpace t = t := by
  rw [trimSpace, dropWhile_of_head h.1,
    dropWhile_of_head (by rw [head?_reverse]; exact h.2), reverse_reverse]

theorem trimSpace_space (h : Trimmed t) : trimSpace (' ' :: t) = t := by
  rw [trimSpace, dropWhile_cons_of_pos (by decide)]
  exact trimSpace_of_trimmed h

/-- A text without white space is as it is. -/
theorem trimmed_of_forall (h : ∀ c ∈ t, isSpace c = false) : Trimmed t :=
  ⟨fun c hc => h c (mem_of_mem_head? hc), fun c hc => h c (mem_of_mem_getLast? hc)⟩

/-- The text before and after the first separator. -/
def cut (sep : Char) : List Char → Option (List Char × List Char)
  | [] => none
  | c :: t => if c = sep then some ([], t) else (cut sep t).map fun p => (c :: p.1, p.2)

theorem cut_append (b : List Char) (h : sep ∉ a) :
    cut sep (a ++ sep :: b) = some (a, b) := by
  induction a with
  | nil => simp [cut]
  | cons c a ih =>
    rw [mem_cons, not_or] at h
    rw [cons_append, cut, if_neg (Ne.symm h.1), ih h.2]
    rfl

theorem eq_append_of_cut {b : List Char} (h : cut sep t = some (a, b)) :
    t = a ++ sep :: b := by
  induction t generalizing a with
  | nil => cases h
  | cons c t ih =>
    rw [cut] at h
    split at h
    next hc =>
      obtain ⟨rfl, rfl⟩ := Prod.mk.inj (Option.some.inj h)
      rw [hc]
      rfl
    next =>
      obtain ⟨⟨a', b'⟩, hcut, hpair⟩ := Option.map_eq_some_iff.mp h
      obtain ⟨rfl, rfl⟩ := Prod.mk.inj hpair
      rw [ih hcut]
      rfl

/-- The cut is at the first separator. -/
theorem cut_left {b : List Char} (h : cut sep t = some (a, b)) :
    cut sep a = none := by
  induction t generalizing a with
  | nil => cases h
  | cons c t ih =>
    rw [cut] at h
    split at h
    next =>
      obtain ⟨rfl, rfl⟩ := Prod.mk.inj (Option.some.inj h)
      rfl
    next hc =>
      obtain ⟨⟨a', b'⟩, hcut, hpair⟩ := Option.map_eq_some_iff.mp h
      obtain ⟨rfl, rfl⟩ := Prod.mk.inj hpair
      rw [cut, if_neg hc, ih hcut]
      rfl

/-- What stands before the first separator, and what follows it, are determined. -/
theorem append_cons_inj {α : Type*} {sep : α} {a a' b b' : List α} (ha : sep ∉ a) (ha' : sep ∉ a')
    (h : a ++ sep :: b = a' ++ sep :: b') : a = a' ∧ b = b' := by
  induction a generalizing a' with
  | nil =>
    cases a' with
    | nil => exact ⟨rfl, (cons.inj h).2⟩
    | cons c a' => exact absurd ((cons.inj h).1 ▸ mem_cons_self) ha'
  | cons c a ih =>
    cases a' with
    | nil => exact absurd ((cons.inj h).1 ▸ mem_cons_self) ha
    | cons c' a' =>
      obtain ⟨rfl, htail⟩ := cons.inj h
      obtain ⟨rfl, rfl⟩ := ih (fun hm => ha (.tail _ hm))
        (fun hm => ha' (.tail _ hm)) htail
      exact ⟨rfl, rfl⟩

/-- The lines of a text. -/
def lines : List Char → List (List Char)
  | [] => [[]]
  | c :: t => if c = '\n' then [] :: lines t else
      match lines t with
      | [] => [[c]]
      | l :: ls => (c :: l) :: ls

/-- A text of lines, each ended. -/
def unlines (ls : List (List Char)) : List Char := ls.flatMap (· ++ ['\n'])

theorem lines_append {l : List Char} (t : List Char) (h : '\n' ∉ l) :
    lines (l ++ '\n' :: t) = l :: lines t := by
  induction l with
  | nil => simp [lines]
  | cons c l ih =>
    rw [mem_cons, not_or] at h
    rw [cons_append, lines, if_neg (Ne.symm h.1), ih h.2]

/-- **Lines printed are read back**, and the empty one after the last. -/
theorem lines_unlines {ls : List (List Char)} (h : ∀ l ∈ ls, '\n' ∉ l) :
    lines (unlines ls) = ls ++ [[]] := by
  induction ls with
  | nil => rfl
  | cons l ls ih =>
    rw [forall_mem_cons] at h
    have hcons : unlines (l :: ls) = l ++ '\n' :: unlines ls := by simp [unlines]
    rw [hcons, lines_append _ h.1, ih h.2, cons_append]

/-- No digit is white space. -/
theorem isSpace_digitChar (h : d < 16) : isSpace (digitChar d) = false := by
  interval_cases d <;> decide

theorem isSpace_of_mem_map_digitChar (hb : b ≤ 16) (h : ∀ d ∈ ds, d < b) (hc : c ∈ ds.map digitChar) :
    isSpace c = false := by
  obtain ⟨d, hd, rfl⟩ := mem_map.mp hc
  exact isSpace_digitChar ((h d hd).trans_le hb)

theorem isSpace_of_mem_printInt {z : ℤ} (h : c ∈ printInt z) : isSpace c = false := by
  have hdigits : ∀ {n : ℕ} {c : Char}, c ∈ printNat n → isSpace c = false := fun hc =>
    isSpace_of_mem_map_digitChar (by decide) (fun _ => lt_of_mem_digits (by decide)) hc
  cases z with
  | ofNat n => exact hdigits h
  | negSucc n =>
    rcases mem_cons.mp h with rfl | h
    · decide
    · exact hdigits h

theorem printInt_ne_nil (z : ℤ) : printInt z ≠ [] := by
  cases z with
  | ofNat n => exact printNat_ne_nil n
  | negSucc n => simp [printInt]

end Text
