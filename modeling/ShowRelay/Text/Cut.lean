/-
  ShowRelay.Text.Cut

  Cutting a list of characters (or bytes) in two: taking a fixed beginning or
  ending off, and splitting at the first or the last occurrence of a separator.
  Each cut comes with the equation that says exactly when it succeeds and what
  the pieces are, so that no later proof has to look inside the recursion.
-/

namespace ShowRelay.Text

variable {α : Type} [DecidableEq α]

/-! ## A fixed beginning or ending -/

/-- The rest of `s` after the beginning `p`, when `s` begins with `p`. -/
def dropFront? : (p s : List α) → Option (List α)
  | [], s => some s
  | _ :: _, [] => none
  | a :: p, b :: s => if a = b then dropFront? p s else none

theorem dropFront?_eq_some_iff {p s r : List α} :
    dropFront? p s = some r ↔ s = p ++ r := by
  fun_induction dropFront? p s with
  | case1 s => simp [eq_comm]
  | case2 => simp
  | case3 p b s ih => simpa using ih
  | case4 a p b s h => simp; intro h'; exact absurd h'.symm h

/-- What stands before the ending `p` of `s`, when `s` ends with `p`. -/
def dropBack? (p s : List α) : Option (List α) :=
  (dropFront? p.reverse s.reverse).map List.reverse

theorem dropBack?_eq_some_iff {p s r : List α} :
    dropBack? p s = some r ↔ s = r ++ p := by
  simp only [dropBack?, Option.map_eq_some_iff, dropFront?_eq_some_iff]
  constructor
  · rintro ⟨q, h, rfl⟩
    have := congrArg List.reverse h
    simpa using this
  · rintro rfl
    exact ⟨r.reverse, by simp, by simp⟩

/-! ## A separator -/

/-- The pieces before and after the first `sep`. -/
def splitFirst? (sep : α) : List α → Option (List α × List α)
  | [] => none
  | c :: cs =>
    if c = sep then some ([], cs)
    else (splitFirst? sep cs).map fun (front, back) => (c :: front, back)

theorem splitFirst?_eq_some_iff {sep : α} {s front back : List α} :
    splitFirst? sep s = some (front, back) ↔ s = front ++ sep :: back ∧ sep ∉ front := by
  induction s generalizing front with
  | nil => simp [splitFirst?]
  | cons c cs ih =>
    by_cases h : c = sep
    · subst h
      cases front with
      | nil => simp [splitFirst?]
      | cons x xs => simp [splitFirst?]; intro h _ hx; exact absurd h hx
    · cases front with
      | nil => simp [splitFirst?, h]
      | cons x xs =>
        simp only [splitFirst?, if_neg h, Option.map_eq_some_iff, Prod.exists, Prod.mk.injEq,
          List.cons.injEq, List.cons_append, List.mem_cons, not_or]
        constructor
        · rintro ⟨u, v, huv, ⟨rfl, rfl⟩, rfl⟩
          obtain ⟨rfl, hu⟩ := ih.1 huv
          exact ⟨⟨rfl, rfl⟩, fun e => h e.symm, hu⟩
        · rintro ⟨⟨rfl, rfl⟩, _, hx⟩
          exact ⟨xs, back, ih.2 ⟨rfl, hx⟩, ⟨rfl, rfl⟩, rfl⟩

theorem splitFirst?_eq_none_iff {sep : α} {s : List α} :
    splitFirst? sep s = none ↔ sep ∉ s := by
  induction s with
  | nil => simp [splitFirst?]
  | cons c cs ih =>
    by_cases h : c = sep
    · simp [splitFirst?, h]
    · simp [splitFirst?, h, ih, Ne.symm h]

/-- The pieces before and after the last `sep`. -/
def splitLast? (sep : α) (s : List α) : Option (List α × List α) :=
  (splitFirst? sep s.reverse).map fun (back, front) => (front.reverse, back.reverse)

end ShowRelay.Text
