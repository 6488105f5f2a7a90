import Coursework.Java.Radix

/-!
# Lines built from tokens

Tokens without whitespace, joined by single spaces, are what splitting the line gives
back, and a number written in hexadecimal is what parsing its token gives back. So a
line can be made for any record that a simulator is to read.
-/

namespace Coursework.Java

/-- A text without whitespace. -/
def IsToken (token : List Char) : Prop := token ≠ [] ∧ ∀ ch ∈ token, isSpace ch = false

/-- Tokens joined by single spaces. -/
def joinTokens : List (List Char) → List Char
  | [] => []
  | [token] => token
  | token :: rest => token ++ ' ' :: joinTokens rest

/-- The first piece of a text that begins with a token and a space. -/
theorem pieces_append_space (token rest : List Char) (htoken : ∀ ch ∈ token, isSpace ch = false)
    (hrest : (rest.head?.map isSpace).getD false = false) :
    pieces (token ++ ' ' :: rest) = token :: pieces rest := by
  induction token with
  | nil => simp [pieces, hrest, show isSpace ' ' = true by decide]
  | cons ch token ih =>
    have hch : isSpace ch = false := htoken ch (by simp)
    rw [List.cons_append, pieces, hch, ih fun c hc => htoken c (List.mem_cons_of_mem ch hc)]
    simp

/-- A text without whitespace is its only piece. -/
theorem pieces_of_isToken (token : List Char) (htoken : ∀ ch ∈ token, isSpace ch = false) :
    pieces token = [token] := by
  induction token with
  | nil => rfl
  | cons ch token ih =>
    have hch : isSpace ch = false := htoken ch (by simp)
    rw [pieces, hch, ih fun c hc => htoken c (List.mem_cons_of_mem ch hc)]
    simp

/-- The pieces of joined tokens are the tokens. -/
theorem pieces_joinTokens (tokens : List (List Char)) (hne : tokens ≠ [])
    (h : ∀ token ∈ tokens, IsToken token) : pieces (joinTokens tokens) = tokens := by
  induction tokens with
  | nil => exact absurd rfl hne
  | cons token rest ih =>
    have htoken := (h token (by simp)).2
    cases rest with
    | nil => exact pieces_of_isToken token htoken
    | cons next others =>
      have hnext := h next (by simp)
      have hhead : (((joinTokens (next :: others)).head?).map isSpace).getD false = false := by
        obtain ⟨ch, tail, rfl⟩ := List.exists_cons_of_ne_nil hnext.1
        cases others <;> simpa [joinTokens] using hnext.2 ch (by simp)
      rw [joinTokens, pieces_append_space token _ htoken hhead,
        ih (by simp) fun t ht => h t (List.mem_cons_of_mem token ht)]
      simp

/-- Splitting a line of at least two tokens gives the tokens. -/
theorem split_joinTokens (first second : List Char) (rest : List (List Char))
    (h : ∀ token ∈ first :: second :: rest, IsToken token) :
    split (String.ofList (joinTokens (first :: second :: rest))) =
      (first :: second :: rest).map String.ofList := by
  have hspace : (joinTokens (first :: second :: rest)).any isSpace = true := by
    apply List.any_eq_true.mpr
    exact ⟨' ', by simp [joinTokens], by decide⟩
  have hlast : ∀ tokens : List (List Char), (∀ token ∈ tokens, IsToken token) →
      tokens.reverse.dropWhile (fun piece => piece = []) = tokens.reverse := by
    intro tokens htokens
    cases hreverse : tokens.reverse with
    | nil => rfl
    | cons last others =>
      have hmem : last ∈ tokens := by
        rw [← List.mem_reverse, hreverse]
        simp
      rw [List.dropWhile_cons_of_neg (by simpa using (htokens last hmem).1)]
  rw [split, String.toList_ofList, if_pos hspace, pieces_joinTokens _ (by simp) h, hlast _ h,
    List.reverse_reverse]

/-- Hexadecimal digits are a token. -/
theorem isToken_toDigits (n : ℕ) : IsToken (Nat.toDigits 16 n) := by
  have hdigit : ∀ d < 16, isSpace (Nat.digitChar d) = false := by decide
  refine ⟨List.ne_nil_of_length_pos Nat.length_toDigits_pos, ?_⟩
  intro ch hch
  induction n using Nat.strongRecOn with
  | ind n ih =>
    by_cases hn : n < 16
    · rw [Nat.toDigits_of_lt_base hn, List.mem_singleton] at hch
      exact hch ▸ hdigit n hn
    · rw [Nat.toDigits_of_base_le (by decide) (by omega), List.mem_append,
        List.mem_singleton] at hch
      rcases hch with hch | rfl
      · exact ih (n / 16) (by omega) hch
      · exact hdigit _ (Nat.mod_lt n (by decide))

/-- A number is parsed from its hexadecimal digits. -/
theorem parseLong_toDigits (n : ℕ) (hn : n < 2 ^ 63) :
    parseLong (String.ofList (Nat.toDigits 16 n)) 16 = .ok (Int64.ofNat n) :=
  parseLong_digits 16 _ n (isToken_toDigits n).1
    (digitsValue_toDigits 16 n (by decide) (by decide)) hn

end Coursework.Java
