import Mathlib.Data.List.Forall2

/-!
# Lists that correspond item by item

Two stores that are written in step hold the same rows in different clothes:
the lists are related position by position.  What one of them is asked, the
other answers alike, and what is done to each related pair relates the results.
-/

namespace EthPayServer.Lib.Paired

variable {α β γ : Type} {R S : α → β → Prop} {xs : List α} {ys : List β}

variable (pairs : List.Forall₂ R xs ys)
include pairs

theorem withMem : List.Forall₂ (fun x y => R x y ∧ x ∈ xs ∧ y ∈ ys) xs ys := by
  induction pairs with
  | nil => exact .nil
  | cons related rest ih =>
    refine .cons ⟨related, List.mem_cons_self, List.mem_cons_self⟩ (ih.imp ?_)
    rintro x y ⟨also, memX, memY⟩
    exact ⟨also, List.mem_cons_of_mem _ memX, List.mem_cons_of_mem _ memY⟩

theorem map {f : α → α} {g : β → β} (each : ∀ x y, R x y → x ∈ xs → y ∈ ys → S (f x) (g y)) :
    List.Forall₂ S (xs.map f) (ys.map g) := by
  rw [List.forall₂_map_left_iff, List.forall₂_map_right_iff]
  refine (withMem pairs).imp ?_
  rintro x y ⟨related, memX, memY⟩
  exact each x y related memX memY

/-- Only the first list is changed in place. -/
theorem map_left {f : α → α} (each : ∀ x y, R x y → y ∈ ys → S (f x) y) : List.Forall₂ S (xs.map f) ys := by
  rw [List.forall₂_map_left_iff]
  refine (withMem pairs).imp ?_
  rintro x y ⟨related, -, memY⟩
  exact each x y related memY

/-- Only the second list is changed in place. -/
theorem map_right {g : β → β} (each : ∀ x y, R x y → y ∈ ys → S x (g y)) : List.Forall₂ S xs (ys.map g) := by
  rw [List.forall₂_map_right_iff]
  refine (withMem pairs).imp ?_
  rintro x y ⟨related, -, memY⟩
  exact each x y related memY

theorem concat {x : α} {y : β} (related : R x y) : List.Forall₂ R (xs ++ [x]) (ys ++ [y]) :=
  List.rel_append pairs (.cons related .nil)

theorem exists_left {y : β} (mem : y ∈ ys) : ∃ x ∈ xs, R x y := by
  induction pairs with
  | nil => cases mem
  | cons related rest ih =>
    rcases List.mem_cons.mp mem with rfl | later
    · exact ⟨_, List.mem_cons_self, related⟩
    · obtain ⟨x, memX, also⟩ := ih later
      exact ⟨x, List.mem_cons_of_mem _ memX, also⟩

/-- What related items share, the lists share. -/
theorem map_eq {f : α → γ} {g : β → γ} (same : ∀ x y, R x y → f x = g y) : xs.map f = ys.map g := by
  induction pairs with
  | nil => rfl
  | cons related rest ih => rw [List.map_cons, List.map_cons, same _ _ related, ih]

/-- A choice that treats related items alike keeps related items. -/
theorem filter {p : α → Bool} {q : β → Bool} (alike : ∀ x y, R x y → x ∈ xs → y ∈ ys → p x = q y) :
    List.Forall₂ R (xs.filter p) (ys.filter q) := by
  have kept := List.rel_filter (R := fun x y => R x y ∧ x ∈ xs ∧ y ∈ ys) (p := p) (q := q)
    (by rintro x y ⟨related, memX, memY⟩; simp only [alike x y related memX memY]) (withMem pairs)
  exact kept.imp fun x y related => related.1

theorem any_eq {p : α → Bool} {q : β → Bool} (alike : ∀ x y, R x y → x ∈ xs → y ∈ ys → p x = q y) :
    xs.any p = ys.any q := by
  have same : xs.map p = ys.map q :=
    map_eq (withMem pairs) fun x y related => alike x y related.1 related.2.1 related.2.2
  have isAny : (xs.map p).any id = (ys.map q).any id := by rw [same]
  simpa only [List.any_map, Function.id_comp] using isAny

end EthPayServer.Lib.Paired
