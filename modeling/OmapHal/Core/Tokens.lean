import Mathlib.Data.List.Induction
import Mathlib.Tactic.Cases
import Mathlib.Tactic.Ring

/-!
# Tokens and lines

A text cut into tokens at separators, into lines after terminators, and into pairs of neighbours.
-/

namespace OmapHal.Core

open List

variable {α : Type*} {sep q : α → Bool} {s t w rest : List α} {n : Nat}

/-! ### Tokens -/

/-- The first token and the text behind the separator that ends it. -/
def nextToken (sep : α → Bool) (s : List α) : Option (List α × List α) :=
  match s.dropWhile sep with
  | [] => none
  | c :: s =>
    some ((c :: s).takeWhile fun c => !sep c, ((c :: s).dropWhile fun c => !sep c).drop 1)

theorem head_of_dropWhile {c : α} (h : s.dropWhile q = c :: t) : q c = false := by
  have hhead := head_dropWhile_not q (l := s) (by rw [h]; exact cons_ne_nil c t)
  simpa only [h, head_cons] using hhead

theorem length_of_nextToken (h : nextToken sep s = some (w, rest)) : rest.length < s.length := by
  have hdrop := (dropWhile_suffix (l := s) sep).length_le
  unfold nextToken at h
  split at h
  · cases h
  · rename_i c t heq
    obtain ⟨-, rfl⟩ := Prod.mk.inj (Option.some.inj h)
    have hrest := (dropWhile_suffix (l := t) fun c => !sep c).length_le
    rw [dropWhile_cons_of_pos (by rw [head_of_dropWhile heq]; rfl), length_drop]
    rw [heq, length_cons] at hdrop
    omega

/-- All tokens of a text. -/
def tokens (sep : α → Bool) (s : List α) : List (List α) :=
  match _h : nextToken sep s with
  | none => []
  | some (w, rest) => w :: tokens sep rest
termination_by s.length
decreasing_by exact length_of_nextToken _h

theorem tokens_of_none (h : nextToken sep s = none) : tokens sep s = [] := by
  rw [tokens]
  split
  · rfl
  · rename_i heq
    rw [h] at heq
    cases heq

theorem tokens_of_some (h : nextToken sep s = some (w, rest)) :
    tokens sep s = w :: tokens sep rest := by
  rw [tokens]
  split
  · rename_i heq
    rw [h] at heq
    cases heq
  · rename_i heq
    rw [h] at heq
    cases heq
    rfl

/-- A stronger test takes as much, if it holds of all that the weaker one takes. -/
theorem takeWhile_stronger {p p' : α → Bool} (hp : ∀ c, p' c → p c)
    (h : ∀ c ∈ s.takeWhile p, p' c) :
    s.takeWhile p' = s.takeWhile p ∧ s.dropWhile p' = s.dropWhile p := by
  induction s with
  | nil => exact ⟨rfl, rfl⟩
  | cons c s ih =>
    by_cases hc : p c
    · rw [takeWhile_cons_of_pos hc] at h
      have hc' := h c mem_cons_self
      obtain ⟨htake, hdrop⟩ := ih fun d hd => h d (mem_cons_of_mem c hd)
      rw [takeWhile_cons_of_pos hc, takeWhile_cons_of_pos hc',
        dropWhile_cons_of_pos hc, dropWhile_cons_of_pos hc', htake, hdrop]
      exact ⟨rfl, rfl⟩
    · have hc' : ¬ p' c := fun h' => hc (hp c h')
      rw [takeWhile_cons_of_neg hc, takeWhile_cons_of_neg hc',
        dropWhile_cons_of_neg hc, dropWhile_cons_of_neg hc']
      exact ⟨rfl, rfl⟩

/-- More separators drop the same before an element that is no separator. -/
theorem dropWhile_of_fewer (hq : ∀ c, q c → sep c) {c : α}
    (h : s.dropWhile q = c :: t) (hc : sep c = false) : s.dropWhile sep = c :: t := by
  induction s with
  | nil => cases h
  | cons d s ih =>
    by_cases hd : q d
    · rw [dropWhile_cons_of_pos hd] at h
      rw [dropWhile_cons_of_pos (hq d hd)]
      exact ih h
    · rw [dropWhile_cons_of_neg hd] at h
      obtain ⟨rfl, rfl⟩ := cons.inj h
      rw [dropWhile_cons_of_neg (by rw [hc]; exact Bool.false_ne_true)]

/-- A first token that is cut at fewer separators is the first token, if it has no separator. -/
theorem nextToken_of_fewer (hq : ∀ c, q c → sep c)
    (h : nextToken q s = some (w, rest)) (hw : ∀ c ∈ w, sep c = false) :
    nextToken sep s = some (w, rest) := by
  unfold nextToken at h ⊢
  split at h
  · cases h
  · rename_i c t heq
    obtain ⟨rfl, rfl⟩ := Prod.mk.inj (Option.some.inj h)
    have hmem : c ∈ (c :: t).takeWhile fun c => !q c := by
      simp [head_of_dropWhile heq]
    have hall : ∀ d ∈ (c :: t).takeWhile fun c => !q c, (!sep d) := fun d hd => by
      rw [hw d hd]
      rfl
    have hweaker : ∀ d, (!sep d) → (!q d) := fun d hd => by
      cases hqd : q d with
      | false => rfl
      | true =>
        rw [hq d hqd] at hd
        cases hd
    obtain ⟨htake, hdrop⟩ := takeWhile_stronger hweaker hall
    rw [dropWhile_of_fewer hq heq (hw c hmem)]
    dsimp only
    rw [htake, hdrop]

/-! ### Lines -/

/-- The lines of a text, each with the terminator that ends it. -/
def lines (term : α → Bool) : List α → List (List α)
  | [] => []
  | c :: s =>
    if term c then [c] :: lines term s
    else
      match lines term s with
      | [] => [[c]]
      | l :: ls => (c :: l) :: ls

/-- The text up to the first terminator. -/
def upTo (term : α → Bool) : List α → List α
  | [] => []
  | c :: s => if term c then [c] else c :: upTo term s

/-- The pieces of a text, each of which ends with a terminator, or after `n + 1` elements. -/
def pieces (term : α → Bool) (n : Nat) (s : List α) : List (List α) :=
  match s with
  | [] => []
  | c :: s =>
    upTo term ((c :: s).take (n + 1)) ::
      pieces term n ((c :: s).drop (upTo term ((c :: s).take (n + 1))).length)
termination_by s.length
decreasing_by
  rw [List.length_drop, List.take_succ_cons, upTo]
  split
  · rw [List.length_cons, List.length_cons]
    omega
  · rw [List.length_cons, List.length_cons]
    omega

variable {term : α → Bool}

theorem lines_eq_cons (h : s ≠ []) :
    lines term s = upTo term s :: lines term (s.drop (upTo term s).length) := by
  induction s with
  | nil => exact absurd rfl h
  | cons c s ih =>
    rw [lines, upTo]
    by_cases hc : term c
    · rw [if_pos hc, if_pos hc]
      rfl
    · rw [if_neg hc, if_neg hc]
      cases s with
      | nil => rfl
      | cons d s =>
        rw [ih (cons_ne_nil d s)]
        rfl

theorem upTo_take (h : (upTo term s).length ≤ n) : upTo term (s.take n) = upTo term s := by
  induction s generalizing n with
  | nil => rw [take_nil]
  | cons c s ih =>
    rw [upTo] at h ⊢
    obtain ⟨n, rfl⟩ : ∃ m, n = m + 1 := by
      cases n with
      | zero => split at h <;> exact absurd h (by simp)
      | succ n => exact ⟨n, rfl⟩
    rw [take_succ_cons, upTo]
    by_cases hc : term c
    · rw [if_pos hc, if_pos hc]
    · rw [if_neg hc, length_cons] at h
      rw [if_neg hc, if_neg hc, ih (by omega)]

/-- The pieces of a text without long lines are its lines. -/
theorem pieces_eq_lines (h : ∀ l ∈ lines term s, l.length ≤ n + 1) :
    pieces term n s = lines term s := by
  fun_induction pieces term n s with
  | case1 => rfl
  | case2 c s ih =>
    rw [lines_eq_cons (cons_ne_nil c s)] at h ⊢
    have htake := upTo_take (h _ mem_cons_self)
    rw [htake] at ih ⊢
    rw [ih fun l hl => h l (mem_cons_of_mem _ hl)]

/-! ### Numbers -/

/-- `isspace` in the C locale. -/
def isspace (c : Char) : Bool := c = ' ' || (9 ≤ c.toNat && c.toNat ≤ 13)

/-- The value of a row of digits. -/
def digitsValue (digits : List Char) : Nat :=
  digits.foldl (fun n c => 10 * n + (c.toNat - '0'.toNat)) 0

/-- The number that a text begins with, if there is one: spaces, a sign, digits. -/
def number? (s : List Char) : Option Int :=
  let s := s.dropWhile isspace
  let unsigned := if s.head? = some '-' ∨ s.head? = some '+' then s.tail else s
  let digits := unsigned.takeWhile Char.isDigit
  if digits = [] then none
  else some (if s.head? = some '-' then -(digitsValue digits : Int) else digitsValue digits)

/-- `atoi`: 0 where no number is, and the nearest `int` to one that is too large. -/
def atoi (s : List Char) : Int := max (-2 ^ 31) (min (2 ^ 31 - 1) ((number? s).getD 0))

theorem digitsValue_snoc (s : List Char) (c : Char) :
    digitsValue (s ++ [c]) = 10 * digitsValue s + (c.toNat - '0'.toNat) := by
  simp [digitsValue, foldl_append]

theorem digitsValue_append (s t : List Char) :
    digitsValue (s ++ t) = digitsValue s * 10 ^ t.length + digitsValue t := by
  induction t using reverseRecOn with
  | nil => simp [digitsValue]
  | append_singleton t c ih =>
    rw [← append_assoc, digitsValue_snoc, ih, digitsValue_snoc, length_append,
      length_singleton, pow_succ]
    ring

theorem digitsValue_lt {s : List Char} (h : ∀ c ∈ s, c.isDigit) :
    digitsValue s < 10 ^ s.length := by
  induction s using reverseRecOn with
  | nil => simp [digitsValue]
  | append_singleton s c ih =>
    have hs := ih fun d hd => h d (mem_append_left _ hd)
    have hc : c.toNat - '0'.toNat ≤ 9 := by
      have hdigit := h c (by simp)
      simp only [Char.isDigit, Bool.and_eq_true, decide_eq_true_eq] at hdigit
      have hle : c.toNat ≤ 57 := hdigit.2
      have h0 : '0'.toNat = 48 := rfl
      omega
    rw [digitsValue_snoc, length_append, length_singleton, pow_succ]
    omega

/-! ### Pairs -/

/-- The first with the second, the third with the fourth, and so on. -/
def pairs : List α → List (α × α)
  | a :: b :: l => (a, b) :: pairs l
  | _ => []

end OmapHal.Core
