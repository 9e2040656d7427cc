import ApiTemplate.Entities.Source
import Mathlib.Data.List.Basic

/-!
# What a rebuild assigns

`build_root` assigns the items of a source and rebuilds its children. A property of heaps that every
such assignment keeps, down to a bounded depth, is kept by the whole rebuild, which returns.
-/

namespace ApiTemplate.Entities

variable {O α β γ : Type}

/-! ## Running code -/

theorem bind_ok {x : Py O α β} {f : β → Py O α γ} {h h' : Heap O α} {b : β}
    (hx : x h = .ok b h') : (x >>= f) h = f b h' := by
  show EStateM.bind x f h = _
  rw [EStateM.bind, hx]

theorem bind_error {x : Py O α β} {f : β → Py O α γ} {h h' : Heap O α} {e : PyError}
    (hx : x h = .error e h') : (x >>= f) h = .error e h' := by
  show EStateM.bind x f h = _
  rw [EStateM.bind, hx]

/-! ## Items and children -/

/-- What a source says an attribute is. -/
def Heap.related (h : Heap O α) : Option EntityProxy → Value O α
  | none => .null
  | some entity => .obj (h.root entity)

def Heap.collection (h : Heap O α) (l : ℕ) : Value O α := .list ((h.lists l).map h.root)

/-- The assignments of `build_root`. -/
def Heap.items (h : Heap O α) (s : ℕ) : List (String × Value O α) :=
  (h.sources s).relatedEntities.map (fun item => (item.1, h.related item.2)) ++
    (h.sources s).relatedEntitiesCollections.map fun item => (item.1, h.collection item.2)

def Heap.children (h : Heap O α) (s : ℕ) : List EntityProxy :=
  (h.sources s).relatedEntities.filterMap Prod.snd ++
    (h.sources s).relatedEntitiesCollections.flatMap fun item => h.lists item.2

variable [DecidableEq O]

/-- Down to a depth, the assignments of the source and of those below it keep `I`. -/
def Builds (I : Heap O α → Prop) (h₀ : Heap O α) : ℕ → ℕ → Prop
  | 0, _ => False
  | limit + 1, s =>
    (∀ item ∈ h₀.items s, ∀ h, I h → I (h.setattr (h₀.sources s).obj item.1 item.2)) ∧
      ∀ entity ∈ h₀.children s, Builds I h₀ limit entity.source

section Frame

variable {I : Heap O α → Prop} {h₀ : Heap O α}

/-- The code returns the root and keeps `I`. -/
def Rebuilds (I : Heap O α → Prop) (build : ℕ → Py O α O) (root : O) (s : ℕ) : Prop :=
  ∀ h, I h → ∃ h', build s h = .ok root h' ∧ I h'

omit [DecidableEq O] in
theorem buildRoots_ok {build : ℕ → Py O α O} (entities : List EntityProxy)
    (hbuild : ∀ entity ∈ entities, Rebuilds I build (h₀.root entity) entity.source)
    {h : Heap O α} (hI : I h) :
    ∃ h', buildRoots build entities h = .ok (entities.map h₀.root) h' ∧ I h' := by
  induction entities generalizing h with
  | nil => exact ⟨h, rfl, hI⟩
  | cons entity entities ih =>
    obtain ⟨h₁, hfirst, hI₁⟩ := hbuild entity List.mem_cons_self h hI
    obtain ⟨h₂, hrest, hI₂⟩ := ih (fun e he => hbuild e (List.mem_cons_of_mem _ he)) hI₁
    refine ⟨h₂, ?_, hI₂⟩
    rw [buildRoots, bind_ok hfirst, bind_ok hrest]
    rfl

theorem buildRelated_ok {build : ℕ → Py O α O} {o : O}
    (items : List (String × Option EntityProxy))
    (hbuild : ∀ entity ∈ items.filterMap Prod.snd,
      Rebuilds I build (h₀.root entity) entity.source)
    (hset : ∀ item ∈ items, ∀ h, I h → I (h.setattr o item.1 (h₀.related item.2)))
    {h : Heap O α} (hI : I h) : ∃ h', buildRelated build o items h = .ok () h' ∧ I h' := by
  induction items generalizing h with
  | nil => exact ⟨h, rfl, hI⟩
  | cons item items ih =>
    obtain ⟨key, entity⟩ := item
    have hset₀ := hset _ List.mem_cons_self
    have hsetRest := fun item hitem => hset item (List.mem_cons_of_mem _ hitem)
    cases entity with
    | none => exact ih hbuild hsetRest (hset₀ h hI)
    | some entity =>
      obtain ⟨h₁, hfirst, hI₁⟩ := hbuild entity List.mem_cons_self h hI
      obtain ⟨h₂, hrest, hI₂⟩ :=
        ih (fun e he => hbuild e (List.mem_cons_of_mem _ he)) hsetRest (hset₀ h₁ hI₁)
      refine ⟨h₂, ?_, hI₂⟩
      rw [buildRelated, bind_ok hfirst]
      exact hrest

theorem buildCollections_ok {build : ℕ → Py O α O} {o : O} (items : List (String × ℕ))
    (hbuild : ∀ entity ∈ items.flatMap (fun item => h₀.lists item.2),
      Rebuilds I build (h₀.root entity) entity.source)
    (hset : ∀ item ∈ items, ∀ h, I h → I (h.setattr o item.1 (h₀.collection item.2)))
    (hsame : ∀ h, I h → h.sources = h₀.sources ∧ h.lists = h₀.lists)
    {h : Heap O α} (hI : I h) : ∃ h', buildCollections build o items h = .ok () h' ∧ I h' := by
  induction items generalizing h with
  | nil => exact ⟨h, rfl, hI⟩
  | cons item items ih =>
    obtain ⟨key, l⟩ := item
    obtain ⟨h₁, hroots, hI₁⟩ := buildRoots_ok (h₀.lists l)
      (fun e he => hbuild e (List.mem_flatMap.mpr ⟨_, List.mem_cons_self, he⟩)) hI
    obtain ⟨h₂, hrest, hI₂⟩ := ih
      (fun e he => hbuild e (List.mem_append_right _ he))
      (fun item hitem => hset item (List.mem_cons_of_mem _ hitem))
      (hset _ List.mem_cons_self h₁ hI₁)
    refine ⟨h₂, ?_, hI₂⟩
    have hlist : buildRoots build (h.lists l) h = .ok ((h₀.lists l).map h₀.root) h₁ :=
      (hsame h hI).2 ▸ hroots
    show ((buildRoots build (h.lists l) >>= _) h) = _
    rw [bind_ok hlist]
    exact hrest

/-- **Rebuild rule.** -/
theorem Builds.rebuilds (hsame : ∀ h, I h → h.sources = h₀.sources ∧ h.lists = h₀.lists)
    {limit s : ℕ} (hb : Builds I h₀ limit s) :
    Rebuilds I (buildRoot limit) (h₀.sources s).obj s := by
  induction limit generalizing s with
  | zero => exact hb.elim
  | succ limit ih =>
    intro h hI
    obtain ⟨hset, hbelow⟩ := hb
    have hsource : h.sources s = h₀.sources s := congrFun (hsame h hI).1 s
    obtain ⟨h₁, hrelated, hI₁⟩ := buildRelated_ok (h₀.sources s).relatedEntities
      (fun e he => ih (hbelow e (List.mem_append_left _ he)))
      (fun item hitem => hset _ (List.mem_append_left _ (List.mem_map_of_mem hitem))) hI
    obtain ⟨h₂, hcollections, hI₂⟩ :=
      buildCollections_ok (h₀.sources s).relatedEntitiesCollections
      (fun e he => ih (hbelow e (List.mem_append_right _ he)))
      (fun item hitem => hset _ (List.mem_append_right _ (List.mem_map_of_mem hitem))) hsame hI₁
    refine ⟨h₂, ?_, hI₂⟩
    show ((do
      buildRelated (buildRoot limit) (h.sources s).obj (h.sources s).relatedEntities
      buildCollections (buildRoot limit) (h.sources s).obj (h.sources s).relatedEntitiesCollections
      return (h.sources s).obj) : Py O α O) h = _
    rw [hsource, bind_ok hrelated, bind_ok hcollections]
    rfl

end Frame

end ApiTemplate.Entities
