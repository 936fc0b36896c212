import VcsGateway.Values
import Mathlib.Tactic.IntervalCases

/-!
# Texts that can be read back

Fields joined by a separator that they do not contain, and the digits of numbers:
`str` of a UUID determines the UUID, and neither it nor the decimal text of an integer
contains a colon.
-/

namespace VcsGateway

/-! ### Separators -/

section Separator

variable {α : Type} {sep : α} {a b x y : List α}

/-- A field without the separator ends where the first separator stands. -/
theorem append_sep_inj (ha : sep ∉ a) (hb : sep ∉ b) (h : a ++ sep :: x = b ++ sep :: y) :
    a = b ∧ x = y := by
  induction a generalizing b with
  | nil =>
    cases b with
    | nil => simpa using h
    | cons c b =>
      simp only [List.nil_append, List.cons_append, List.cons.injEq] at h
      exact absurd List.mem_cons_self (h.1 ▸ hb)
  | cons d a ih =>
    cases b with
    | nil =>
      simp only [List.nil_append, List.cons_append, List.cons.injEq] at h
      exact absurd List.mem_cons_self (h.1 ▸ ha)
    | cons c b =>
      simp only [List.cons_append, List.cons.injEq] at h
      rw [List.mem_cons, not_or] at ha hb
      obtain ⟨rfl, rfl⟩ := ih ha.2 hb.2 h.2
      exact ⟨by rw [h.1], rfl⟩

/-- Fields that may contain the separator: one of them may extend the other. -/
theorem append_sep_eq_iff : a ++ sep :: x = b ++ sep :: y ↔
    (a = b ∧ x = y) ∨ (∃ m, b = a ++ sep :: m ∧ x = m ++ sep :: y) ∨
      ∃ m, a = b ++ sep :: m ∧ y = m ++ sep :: x := by
  constructor
  · intro h
    rw [List.append_eq_append_iff] at h
    rcases h with ⟨m, hb, hx⟩ | ⟨m, ha, hy⟩
    · cases m with
      | nil => exact .inl ⟨by simpa using hb.symm, by simpa using hx⟩
      | cons c m =>
        simp only [List.cons_append, List.cons.injEq] at hx
        exact .inr (.inl ⟨m, by rw [hb, hx.1], hx.2⟩)
    · cases m with
      | nil => exact .inl ⟨by simpa using ha, by simpa using hy.symm⟩
      | cons c m =>
        simp only [List.cons_append, List.cons.injEq] at hy
        exact .inr (.inr ⟨m, by rw [ha, hy.1], hy.2⟩)
  · rintro (⟨rfl, rfl⟩ | ⟨m, rfl, rfl⟩ | ⟨m, rfl, rfl⟩) <;> simp

end Separator

/-! ### Digits -/

/-- A number is determined by as many of its hexadecimal digits as it can have. -/
theorem eq_of_hexDigits {k m n : Nat} (hm : m < 16 ^ k) (hn : n < 16 ^ k)
    (h : ∀ i < k, m / 16 ^ i % 16 = n / 16 ^ i % 16) : m = n := by
  induction k generalizing m n with
  | zero => omega
  | succ k ih =>
    rw [Nat.pow_succ] at hm hn
    have hlast := h 0 (by omega)
    simp only [Nat.pow_zero, Nat.div_one] at hlast
    have hrest : m / 16 = n / 16 := by
      apply ih (by omega) (by omega)
      intro i hi
      have hdigit := h (i + 1) (by omega)
      rw [Nat.pow_succ, Nat.mul_comm] at hdigit
      rwa [Nat.div_div_eq_div_mul, Nat.div_div_eq_div_mul]
    omega

theorem digitChar_inj {m n : Nat} (hm : m < 16) (hn : n < 16) (h : m.digitChar = n.digitChar) :
    m = n := by
  interval_cases m <;> interval_cases n <;> simp [Nat.digitChar] at h ⊢

theorem digitChar_ne {n : Nat} (hn : n < 16) : n.digitChar ≠ ':' ∧ n.digitChar ≠ '-' := by
  interval_cases n <;> decide

/-! ### UUIDs -/

namespace UUID

variable {u u' : UUID}

theorem hex_length : u.hex.length = 32 := by simp [hex]

theorem mem_hex {c : Char} (h : c ∈ u.hex) : ∃ n < 16, c = n.digitChar := by
  simp only [hex, List.mem_map] at h
  obtain ⟨i, -, rfl⟩ := h
  exact ⟨_, Nat.mod_lt _ (by omega), rfl⟩

theorem hex_piece (n : Nat) : (u.hex.drop n).take 4 ⊆ u.hex := by
  intro c hc
  exact List.mem_of_mem_drop (List.mem_of_mem_take hc)

theorem hex_injective (h : u.hex = u'.hex) : u = u' := by
  have hdigits : ∀ i < 32, u.bits.toNat / 16 ^ i % 16 = u'.bits.toNat / 16 ^ i % 16 := by
    intro i hi
    have hget : u.hex[31 - i]? = u'.hex[31 - i]? := by rw [h]
    have hlt : 31 - i < 32 := by omega
    have hback : 31 - (31 - i) = i := by omega
    simp only [hex, List.getElem?_map, List.getElem?_range hlt, Option.map_some, Option.some.injEq,
      hback] at hget
    exact digitChar_inj (Nat.mod_lt _ (by omega)) (Nat.mod_lt _ (by omega)) hget
  have hbits : u.bits.toNat = u'.bits.toNat :=
    eq_of_hexDigits (k := 32) u.bits.isLt u'.bits.isLt hdigits
  cases u
  cases u'
  exact congrArg UUID.mk (BitVec.eq_of_toNat_eq hbits)

/-- Without the hyphens, the text is the digits. -/
theorem filter_chars : u.chars.filter (· ≠ '-') = u.hex := by
  have hall : ∀ c ∈ u.hex, decide (c ≠ '-') = true := by
    intro c hc
    obtain ⟨n, hn, rfl⟩ := mem_hex hc
    simp [(digitChar_ne hn).2]
  have hpart : ∀ l : List Char, l ⊆ u.hex → l.filter (· ≠ '-') = l :=
    fun l hl => List.filter_eq_self.mpr fun c hc => hall c (hl hc)
  simp only [chars, List.filter_append, List.filter_cons, ne_eq, not_true_eq_false, decide_false,
    Bool.false_eq_true, if_false]
  rw [hpart _ (List.take_subset _ _), hpart _ (hex_piece 8), hpart _ (hex_piece 12), hpart _ (hex_piece 16),
    hpart _ (List.drop_subset _ _)]
  have hjoin : ∀ n, (u.hex.drop n).take 4 ++ u.hex.drop (n + 4) = u.hex.drop n := by
    intro n
    rw [← List.drop_drop, List.take_append_drop]
  rw [hjoin 16, hjoin 12, hjoin 8, List.take_append_drop]

theorem str_injective (h : u.str = u'.str) : u = u' := by
  have hchars : u.chars = u'.chars := by
    have hlist := congrArg String.toList h
    simpa [str] using hlist
  apply hex_injective
  rw [← filter_chars, hchars, filter_chars]

theorem colon_not_mem_str : ':' ∉ u.str.toList := by
  have hall : ∀ c ∈ u.hex, c ≠ ':' := by
    intro c hc
    obtain ⟨n, hn, rfl⟩ := mem_hex hc
    exact (digitChar_ne hn).1
  simp only [str, String.toList_ofList, chars, List.mem_append, List.mem_cons, not_or]
  have hdash : ':' ≠ '-' := by decide
  have hpart : ∀ l : List Char, l ⊆ u.hex → ':' ∉ l := fun l hl hc => hall _ (hl hc) rfl
  exact ⟨hpart _ (List.take_subset _ _), hdash, hpart _ (hex_piece 8), hdash, hpart _ (hex_piece 12), hdash,
    hpart _ (hex_piece 16), hdash, hpart _ (List.drop_subset _ _)⟩

end UUID

/-! ### Integers -/

theorem colon_not_mem_toString (n : Int) : ':' ∉ (toString n).toList := by
  have hnat : ∀ m : Nat, ':' ∉ m.repr.toList := by
    intro m hmem
    rw [Nat.toList_repr] at hmem
    have hdigit := Nat.isDigit_of_mem_toDigits (by omega) (by omega) hmem
    exact absurd hdigit (by decide)
  rw [Int.toString_eq_repr, Int.repr_eq_if]
  split
  · exact hnat _
  · intro hmem
    rw [String.toList_append, List.mem_append] at hmem
    rcases hmem with hmem | hmem
    · exact absurd hmem (by decide)
    · exact hnat _ hmem

end VcsGateway
