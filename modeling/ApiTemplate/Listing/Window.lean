import Mathlib.Data.List.Basic
import Mathlib.Data.List.Nodup
import Mathlib.Data.List.Perm.Basic
import Mathlib.Logic.Equiv.Basic
import Mathlib.Tactic.Common

/-!
# Windows

The answers to a query with a limit and an offset: the rows are put in some order that the query
allows, and the window is cut out. Every answer has the same length.
-/

namespace Window

variable {α β : Type}

/-- `LIMIT limit OFFSET offset` -/
def window (limit : Option ℕ) (offset : ℕ) (rows : List α) : List α :=
  match limit with
  | none => rows.drop offset
  | some n => (rows.drop offset).take n

/-- The page is the window of the rows in some order that `le` allows. -/
def IsWindow (le : α → α → Prop) (limit : Option ℕ) (offset : ℕ) (rows page : List α) : Prop :=
  ∃ order : List α, order.Perm rows ∧ order.Pairwise le ∧ page = window limit offset order

/-- The order of a query without one: anything goes. -/
abbrev Unordered : α → α → Prop := fun _ _ => True

/-! ## The length of a window -/

theorem length_window_some (n offset : ℕ) (rows : List α) :
    (window (some n) offset rows).length = min n (rows.length - offset) := by
  simp [window]

theorem length_window_none (offset : ℕ) (rows : List α) :
    (window none offset rows).length = rows.length - offset := by
  simp [window]

theorem map_window (f : α → β) (limit : Option ℕ) (offset : ℕ) (rows : List α) :
    (window limit offset rows).map f = window limit offset (rows.map f) := by
  cases limit <;> simp [window, List.map_take, List.map_drop]

theorem mem_of_mem_window {limit : Option ℕ} {offset : ℕ} {rows : List α} {x : α}
    (h : x ∈ window limit offset rows) : x ∈ rows := by
  cases limit with
  | none => exact List.mem_of_mem_drop h
  | some n => exact List.mem_of_mem_drop (List.mem_of_mem_take h)

section

variable {le : α → α → Prop} {n offset : ℕ} {limit : Option ℕ} {rows page : List α}

theorem IsWindow.length (h : IsWindow le (some n) offset rows page) :
    page.length = min n (rows.length - offset) := by
  obtain ⟨order, hperm, -, rfl⟩ := h
  rw [length_window_some, hperm.length_eq]

theorem IsWindow.length_none (h : IsWindow le none offset rows page) :
    page.length = rows.length - offset := by
  obtain ⟨order, hperm, -, rfl⟩ := h
  rw [length_window_none, hperm.length_eq]

theorem IsWindow.mem (h : IsWindow le limit offset rows page) {x : α} (hx : x ∈ page) :
    x ∈ rows := by
  obtain ⟨order, hperm, -, rfl⟩ := h
  exact hperm.mem_iff.mp (mem_of_mem_window hx)

/-- An answer to the image of a query is the image of an answer. -/
theorem isWindow_map {f : α → β} {g : β → α} (hg : Function.LeftInverse g f)
    {le : β → β → Prop} {page : List β} :
    IsWindow le limit offset (rows.map f) page ↔
      ∃ source, IsWindow (fun a b => le (f a) (f b)) limit offset rows source ∧
        page = source.map f := by
  constructor
  · rintro ⟨order, hperm, hle, rfl⟩
    have horder : (order.map g).map f = order := by
      rw [List.map_map]
      refine (List.map_congr_left fun b hb => ?_).trans (List.map_id order)
      obtain ⟨a, -, rfl⟩ := List.mem_map.mp (hperm.mem_iff.mp hb)
      exact congrArg f (hg a)
    have hsource : (order.map g).Perm rows := by
      have hmap := hperm.map g
      rwa [List.map_map, hg.comp_eq_id, List.map_id] at hmap
    refine ⟨_, ⟨order.map g, hsource, List.pairwise_map.mp (horder.symm ▸ hle), rfl⟩, ?_⟩
    rw [map_window, horder]
  · rintro ⟨source, ⟨order, hperm, hle, rfl⟩, rfl⟩
    exact ⟨order.map f, hperm.map f, List.pairwise_map.mpr hle, map_window f _ _ _⟩

/-! ## Windows without an order -/

theorem isWindow_unordered (h : page = window limit offset rows) :
    IsWindow Unordered limit offset rows page :=
  ⟨rows, .refl _, List.pairwise_of_forall fun _ _ => trivial, h⟩

/-- All of the rows are a window if and only if the window holds them all. -/
theorem isWindow_perm_iff (hperm : page.Perm rows) :
    IsWindow Unordered (some n) offset rows page ↔
      rows = [] ∨ offset = 0 ∧ rows.length ≤ n := by
  constructor
  · intro h
    have hlength := h.length
    rw [hperm.length_eq] at hlength
    rcases rows with _ | ⟨r, rows⟩
    · exact .inl rfl
    · rw [List.length_cons] at hlength ⊢
      right
      omega
  · rintro (rfl | ⟨rfl, hlength⟩)
    · obtain rfl := hperm.eq_nil
      exact isWindow_unordered (by simp [window])
    · refine ⟨page, hperm, List.pairwise_of_forall fun _ _ => trivial, ?_⟩
      rw [window, List.drop_zero, List.take_of_length_le (hperm.length_eq ▸ hlength)]

/-- Any row can be in a window that is not past the end. -/
theorem exists_isWindow_mem {x : α} (hx : x ∈ rows) (hn : 0 < n) (hoffset : offset < rows.length) :
    ∃ page, IsWindow Unordered (some n) offset rows page ∧ x ∈ page := by
  obtain ⟨front, back, rfl⟩ := List.append_of_mem hx
  -- the row is put behind `offset` others
  have hperm : ((front ++ back).take offset ++ x :: (front ++ back).drop offset).Perm
      (front ++ x :: back) := by
    refine List.perm_middle.trans ?_
    rw [List.take_append_drop]
    exact List.perm_middle.symm
  refine ⟨_, ⟨_, hperm, List.pairwise_of_forall fun _ _ => trivial, rfl⟩, ?_⟩
  have hlength : ((front ++ back).take offset).length = offset := by
    rw [List.length_append, List.length_cons] at hoffset
    rw [List.length_take, List.length_append]
    omega
  rw [window, List.drop_left' hlength]
  obtain ⟨m, rfl⟩ := Nat.exists_eq_add_of_lt hn
  rw [Nat.zero_add, List.take_succ_cons]
  exact List.mem_cons_self

/-- The windows of some rows are windows of those that satisfy `q` if and only if all of them do, or
the windows are empty. -/
theorem isWindow_filter_iff (q : α → Bool) :
    (∀ page, IsWindow Unordered (some n) offset rows page →
      IsWindow Unordered (some n) offset (rows.filter q) page) ↔
      rows = rows.filter q ∨ n = 0 ∨ rows.length ≤ offset := by
  constructor
  · intro h
    by_contra hno
    obtain ⟨hfilter, hempty⟩ := not_or.mp hno
    obtain ⟨hn, hoffset⟩ := not_or.mp hempty
    -- a row that does not satisfy `q` can be in the window
    obtain ⟨x, hx, hq⟩ : ∃ x ∈ rows, ¬ q x := by
      by_contra hall
      refine hfilter (List.filter_eq_self.mpr fun x hx => ?_).symm
      by_contra hq
      exact hall ⟨x, hx, hq⟩
    obtain ⟨page, hpage, hmem⟩ :=
      exists_isWindow_mem hx (Nat.pos_of_ne_zero hn) (Nat.lt_of_not_le hoffset)
    exact hq (List.mem_filter.mp ((h page hpage).mem hmem)).2
  · rintro (hfilter | hempty) page hpage
    · rwa [← hfilter]
    · have hlength := hpage.length
      have hfiltered := List.length_filter_le q rows
      obtain rfl : page = [] := List.eq_nil_of_length_eq_zero (by omega)
      refine isWindow_unordered (List.eq_nil_of_length_eq_zero ?_).symm
      rw [length_window_some]
      omega

end

/-! ## One page after the other -/

/-- Rows that may stand on either side of each other are the same. -/
def Separates (le : α → α → Prop) (rows : List α) : Prop :=
  ∀ a ∈ rows, ∀ b ∈ rows, le a b → le b a → a = b

theorem flatMap_window (n k : ℕ) (order : List α) :
    ((List.range k).flatMap fun i => window (some n) (i * n) order) = order.take (k * n) := by
  induction k with
  | zero => simp
  | succ k ih =>
    rw [List.range_succ, List.flatMap_append, ih, List.flatMap_singleton, Nat.succ_mul,
      List.take_add]
    rfl

theorem mem_window_one {i : ℕ} {order : List α} {x : α} :
    x ∈ window (some 1) i order ↔ order[i]? = some x := by
  show x ∈ (order.drop i).take 1 ↔ _
  rw [List.take_one, Option.mem_toList, List.head?_drop]

section

variable {le : α → α → Prop} {n k : ℕ} {rows order : List α} {page : ℕ → List α}

/-- Rows that are told apart have one order, so all answers are cut out of the same one. -/
theorem flatMap_pages (hsep : Separates le rows) (horder : order.Perm rows)
    (hle : order.Pairwise le) (hpages : ∀ i, IsWindow le (some n) (i * n) rows (page i)) :
    (List.range k).flatMap page = order.take (k * n) := by
  rw [← flatMap_window]
  refine congrArg (List.flatMap · (List.range k)) (funext fun i => ?_)
  obtain ⟨order', horder', hle', hpage⟩ := hpages i
  have heq : order' = order :=
    (horder'.trans horder.symm).eq_of_pairwise
      (fun a b ha hb => hsep a (horder'.mem_iff.mp ha) b (horder.mem_iff.mp hb)) hle' hle
  rw [hpage, heq]

/-- The pages hold every row once, in order. -/
theorem perm_of_separates (hsep : Separates le rows)
    (hpages : ∀ i, IsWindow le (some n) (i * n) rows (page i)) (hk : rows.length ≤ k * n) :
    ((List.range k).flatMap page).Perm rows ∧ ((List.range k).flatMap page).Pairwise le := by
  obtain ⟨order, horder, hle, -⟩ := hpages 0
  rw [flatMap_pages hsep horder hle hpages, List.take_of_length_le (horder.length_eq ▸ hk)]
  exact ⟨horder, hle⟩

/-- Two rows that are not told apart may change places. -/
theorem pairwise_map_swap [DecidableEq α] (htrans : ∀ x y z, le x y → le y z → le x z) {a b : α}
    (hab : le a b) (hba : le b a) (hle : order.Pairwise le) :
    (order.map (Equiv.swap a b)).Pairwise le := by
  have hback : ∀ x z, le x z → le (Equiv.swap a b x) z := by
    intro x z h
    by_cases ha : x = a
    · rw [ha, Equiv.swap_apply_left]
      exact htrans _ _ _ hba (ha ▸ h)
    · by_cases hb : x = b
      · rw [hb, Equiv.swap_apply_right]
        exact htrans _ _ _ hab (hb ▸ h)
      · rwa [Equiv.swap_apply_of_ne_of_ne ha hb]
  have hforth : ∀ x z, le x z → le x (Equiv.swap a b z) := by
    intro x z h
    by_cases ha : z = a
    · rw [ha, Equiv.swap_apply_left]
      exact htrans _ _ _ (ha ▸ h) hab
    · by_cases hb : z = b
      · rw [hb, Equiv.swap_apply_right]
        exact htrans _ _ _ (hb ▸ h) hba
      · rwa [Equiv.swap_apply_of_ne_of_ne ha hb]
  exact List.pairwise_map.mpr (hle.imp fun h => hforth _ _ (hback _ _ h))

theorem perm_map_swap [DecidableEq α] (hnodup : rows.Nodup) (horder : order.Perm rows) {a b : α}
    (ha : a ∈ rows) (hb : b ∈ rows) : (order.map (Equiv.swap a b)).Perm rows := by
  have hmem : ∀ x ∈ rows, Equiv.swap a b x ∈ rows := by
    intro x hx
    by_cases hxa : x = a
    · rwa [hxa, Equiv.swap_apply_left]
    · by_cases hxb : x = b
      · rwa [hxb, Equiv.swap_apply_right]
      · rwa [Equiv.swap_apply_of_ne_of_ne hxa hxb]
  have hnodup' : (order.map (Equiv.swap a b)).Nodup :=
    List.Nodup.map (Equiv.injective _) (horder.nodup_iff.mpr hnodup)
  refine (List.perm_ext_iff_of_nodup hnodup' hnodup).mpr fun x => ⟨fun hx => ?_, fun hx => ?_⟩
  · obtain ⟨y, hy, rfl⟩ := List.mem_map.mp hx
    exact hmem y (horder.mem_iff.mp hy)
  · exact List.mem_map.mpr ⟨Equiv.swap a b x, horder.mem_iff.mpr (hmem x hx),
      Equiv.swap_apply_self a b x⟩

/-- Where two rows are not told apart, the pages of one row each may show one of them twice and the
other never. -/
theorem exists_pages_missing (htrans : ∀ x y z, le x y → le y z → le x z) (hnodup : rows.Nodup)
    (horder : order.Perm rows) (hle : order.Pairwise le) {a b : α} (ha : a ∈ rows) (hb : b ∈ rows)
    (hab : le a b) (hba : le b a) (hne : a ≠ b) :
    ∃ page : ℕ → List α, (∀ i, IsWindow le (some 1) i rows (page i)) ∧ ∀ i, b ∉ page i := by
  classical
  obtain ⟨j, hj⟩ := List.mem_iff_getElem?.mp (horder.mem_iff.mpr hb)
  -- the page of `b` is taken from the order in which `a` stands there
  refine ⟨fun i => window (some 1) i (if i = j then order.map (Equiv.swap a b) else order),
    fun i => ?_, fun i hi => ?_⟩
  · by_cases hij : i = j
    · exact ⟨_, perm_map_swap hnodup horder ha hb, pairwise_map_swap htrans hab hba hle,
        congrArg (window (some 1) i) (if_pos hij)⟩
    · exact ⟨_, horder, hle, congrArg (window (some 1) i) (if_neg hij)⟩
  · rw [mem_window_one] at hi
    by_cases hij : i = j
    · rw [if_pos hij, hij, List.getElem?_map, hj, Option.map_some, Equiv.swap_apply_right] at hi
      exact hne (Option.some.inj hi)
    · rw [if_neg hij] at hi
      have hlt : i < order.length := (List.getElem?_eq_some_iff.mp hi).1
      exact hij ((List.getElem?_inj hlt (horder.nodup_iff.mpr hnodup)).mp (hi.trans hj.symm))

end

end Window
