import Mathlib

namespace Library

variable {α : Type*}

/-- What a follower shows after a stream of updates, of which only the last one counts. -/
def latest (shown : Option α) (updates : List α) : Option α := updates.foldl (fun _ x => some x) shown

@[simp] theorem latest_nil (shown : Option α) : latest shown [] = shown := rfl

@[simp] theorem latest_cons (shown : Option α) (x : α) (xs : List α) :
    latest shown (x :: xs) = latest (some x) xs := rfl

theorem latest_append (shown : Option α) (xs ys : List α) :
    latest shown (xs ++ ys) = latest (latest shown xs) ys := List.foldl_append

/-- Updates that all say the same change nothing for a follower that shows it. -/
theorem latest_same {x : α} {xs : List α} (h : ∀ y ∈ xs, y = x) : latest (some x) xs = some x := by
  induction xs with
  | nil => rfl
  | cons y ys ih =>
    obtain rfl := h y List.mem_cons_self
    exact ih (fun z hz => h z (List.mem_cons_of_mem y hz))

theorem latest_of_mem {shown : Option α} {x : α} {xs : List α} (h : ∀ y ∈ xs, y = x) (hx : x ∈ xs) :
    latest shown xs = some x := by
  cases xs with
  | nil => exact absurd hx List.not_mem_nil
  | cons y ys =>
    obtain rfl := h y List.mem_cons_self
    exact latest_same (fun z hz => h z (List.mem_cons_of_mem y hz))

/-- What is shown was shown before or is one of the updates. -/
theorem of_latest {shown : Option α} {x : α} {xs : List α} (h : latest shown xs = some x) :
    shown = some x ∨ x ∈ xs := by
  induction xs generalizing shown with
  | nil => exact Or.inl h
  | cons y ys ih =>
    obtain hy | hmem := ih h
    · exact Or.inr (Option.some.inj hy ▸ List.mem_cons_self)
    · exact Or.inr (List.mem_cons_of_mem y hmem)

end Library
