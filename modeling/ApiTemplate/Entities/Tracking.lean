import ApiTemplate.Entities.Rebuild
import Mathlib.Tactic.Common

/-!
# Tracked relations

Runs of `SqlAlchemyEntitySource`: after each call what the source tracks agrees with the attributes
of its object, as long as every call fits the state before it.
-/

namespace ApiTemplate.Entities

variable {O α : Type} [DecidableEq O]

/-! ## Calls -/

/-- A call on a source. The entities of `setRelatedEntities` are given by the number of a list. -/
inductive Op (O α : Type)
  | setRelatedEntity (key : String) (entity : Option EntityProxy)
  | setRelatedEntities (key : String) (entities : ℕ)
  | appendRelatedEntity (key : String) (entity : EntityProxy)
  | removeEntityFromCollection (key : String) (entityId : Value O α)
  | buildRoot

/-- The key that a call names. -/
def Op.key : Op O α → Option String
  | .setRelatedEntity key _ => some key
  | .setRelatedEntities key _ => some key
  | .appendRelatedEntity key _ => some key
  | .removeEntityFromCollection key _ => some key
  | .buildRoot => none

def Op.run [DecidableEq α] (limit s : ℕ) : Op O α → Py O α Unit
  | .setRelatedEntity key entity => Entities.setRelatedEntity s key entity
  | .setRelatedEntities key entities => Entities.setRelatedEntities limit s key entities
  | .appendRelatedEntity key entity => Entities.appendRelatedEntity limit s key entity
  | .removeEntityFromCollection key entityId =>
    Entities.removeEntityFromCollection limit s key entityId
  | .buildRoot => do
    let _ ← Entities.buildRoot limit s
    return ()

/-! ## What a source tracks -/

/-- The entity and the entities that are tracked for a key. -/
def Heap.trackedEntity (h : Heap O α) (s : ℕ) (key : String) : Option (Option EntityProxy) :=
  Dict.get? (h.sources s).relatedEntities key

def Heap.trackedList (h : Heap O α) (s : ℕ) (key : String) : Option ℕ :=
  Dict.get? (h.sources s).relatedEntitiesCollections key

/-- What is tracked for a key agrees with the value. -/
def Heap.Agrees (h : Heap O α) (s : ℕ) (key : String) (value : Value O α) : Prop :=
  (∀ entity, h.trackedEntity s key = some entity → value = h.related entity) ∧
    ∀ l, h.trackedList s key = some l → value = h.collection l

/-- What is tracked agrees with the object; each dict has a key once, and the lists exist. -/
structure Heap.Tracks (h : Heap O α) (s : ℕ) : Prop where
  agrees : ∀ key, h.Agrees s key (h.attrs (h.sources s).obj key)
  nodupEntities : ((h.sources s).relatedEntities.map Prod.fst).Nodup
  nodupLists : ((h.sources s).relatedEntitiesCollections.map Prod.fst).Nodup
  exist : ∀ key l, h.trackedList s key = some l → l < h.nextList

/-- What is tracked for a key, and the attribute, are as before. -/
def Heap.Untouched (h h' : Heap O α) (s : ℕ) (key : String) : Prop :=
  h'.attrs (h.sources s).obj key = h.attrs (h.sources s).obj key ∧
    h'.trackedEntity s key = h.trackedEntity s key ∧
    (h'.trackedList s key).map h'.lists = (h.trackedList s key).map h.lists

/-- The objects of a relationship. -/
def Value.members : Value O α → List O
  | .obj o => [o]
  | .list os => os
  | _ => []

/-- What a call does to the attribute that it names. -/
def Op.Effect [DecidableEq α] (h h' : Heap O α) (s : ℕ) : Op O α → Prop
  | .setRelatedEntity key entity => h'.attrs (h.sources s).obj key = h.related entity
  | .setRelatedEntities key entities => h'.attrs (h.sources s).obj key = h.collection entities
  | .appendRelatedEntity key entity => h'.attrs (h.sources s).obj key =
      .list ((h.attrs (h.sources s).obj key).members ++ [h.root entity])
  | .removeEntityFromCollection key entityId => (h'.attrs (h.sources s).obj key).members =
      (h.attrs (h.sources s).obj key).members.filter fun o => h.attrs o "id" ≠ entityId
  | .buildRoot => True

/-- The call returns, what is tracked then agrees with the object, which is the same, and only the
key that the call names is touched. -/
def Op.Correct [DecidableEq α] (limit s : ℕ) (h : Heap O α) (op : Op O α) : Prop :=
  ∃ h', op.run limit s h = .ok () h' ∧ h'.Tracks s ∧ (h'.sources s).obj = (h.sources s).obj ∧
    (∀ key, op.key ≠ some key → h.Untouched h' s key) ∧ op.Effect h h' s

/-! ## When a call fits -/

/-- Down to a bounded depth, no source from `s` on is of the object. -/
def Heap.Apart (h : Heap O α) (o : O) : ℕ → ℕ → Prop
  | 0, _ => False
  | limit + 1, s => (h.sources s).obj ≠ o ∧ ∀ entity ∈ h.children s, h.Apart o limit entity.source

/-- An entity is not set to `None`, and no key is used both for one entity and for several. What is
below an entity is finite and without the object. A first append finds no children, a later one no
other key with the same list. A removal for a key that is not tracked finds no such child. -/
def Op.Fits [DecidableEq α] (limit s : ℕ) (h : Heap O α) : Op O α → Prop
  | .setRelatedEntity key entity => entity ≠ none ∧ h.trackedList s key = none
  | .setRelatedEntities key entities => entities < h.nextList ∧ h.trackedEntity s key = none ∧
      ∀ entity ∈ h.lists entities,
        (h.trackList s key entities).Apart (h.sources s).obj limit entity.source
  | .appendRelatedEntity key entity =>
    match h.trackedList s key with
    | none => h.trackedEntity s key = none ∧ (h.attrs (h.sources s).obj key).members = [] ∧
        (h.trackNew s key [entity]).Apart (h.sources s).obj limit entity.source
    | some l => (∀ key', key' ≠ key → h.trackedList s key' ≠ some l) ∧
        (h.setList l (h.lists l ++ [entity])).Apart (h.sources s).obj limit entity.source
  | .removeEntityFromCollection key entityId =>
    match h.trackedList s key with
    | none => ∀ o ∈ (h.attrs (h.sources s).obj key).members, h.attrs o "id" ≠ entityId
    | some l =>
      let newCol := (h.lists l).filter fun entity => h.attrs (h.root entity) "id" ≠ entityId
      ∀ entity ∈ newCol, (h.trackNew s key newCol).Apart (h.sources s).obj limit entity.source
  | .buildRoot => ∃ depth, limit = depth + 1 ∧
      ∀ entity ∈ h.children s, h.Apart (h.sources s).obj depth entity.source

/-! ## Bookkeeping -/

section Bookkeeping

variable (h : Heap O α) (s : ℕ) (key : String)

omit [DecidableEq O] in
theorem obj_setSource {src : EntitySource O} (hobj : src.obj = (h.sources s).obj) (s' : ℕ) :
    ((h.setSource s src).sources s').obj = (h.sources s').obj := by
  show (if s' = s then src else h.sources s').obj = _
  split_ifs with hs
  · rw [hobj, hs]
  · rfl

omit [DecidableEq O] in
theorem obj_trackEntity (entity : Option EntityProxy) :
    ∀ s', ((h.trackEntity s key entity).sources s').obj = (h.sources s').obj :=
  obj_setSource h s rfl

omit [DecidableEq O] in
theorem obj_trackList (l : ℕ) :
    ∀ s', ((h.trackList s key l).sources s').obj = (h.sources s').obj :=
  obj_setSource h s rfl

omit [DecidableEq O] in
theorem obj_trackNew (entities : List EntityProxy) :
    ∀ s', ((h.trackNew s key entities).sources s').obj = (h.sources s').obj :=
  obj_trackList (h.setList h.nextList entities) s key h.nextList

omit [DecidableEq O] in
theorem sources_setSource (src : EntitySource O) : (h.setSource s src).sources s = src := if_pos rfl

omit [DecidableEq O] in
theorem trackedEntity_trackEntity (entity : Option EntityProxy) (key' : String) :
    (h.trackEntity s key entity).trackedEntity s key' =
      if key' = key then some entity else h.trackedEntity s key' := by
  rw [Heap.trackedEntity, Heap.trackEntity, sources_setSource]
  split_ifs with hkey
  · rw [hkey, Dict.get?_setItem_self]
  · exact Dict.get?_setItem_of_ne _ _ hkey

omit [DecidableEq O] in
theorem trackedList_trackEntity (entity : Option EntityProxy) (key' : String) :
    (h.trackEntity s key entity).trackedList s key' = h.trackedList s key' := by
  rw [Heap.trackedList, Heap.trackEntity, sources_setSource]
  rfl

omit [DecidableEq O] in
theorem trackedEntity_trackList (l : ℕ) (key' : String) :
    (h.trackList s key l).trackedEntity s key' = h.trackedEntity s key' := by
  rw [Heap.trackedEntity, Heap.trackList, sources_setSource]
  rfl

omit [DecidableEq O] in
theorem trackedList_trackList (l : ℕ) (key' : String) :
    (h.trackList s key l).trackedList s key' =
      if key' = key then some l else h.trackedList s key' := by
  rw [Heap.trackedList, Heap.trackList, sources_setSource]
  split_ifs with hkey
  · rw [hkey, Dict.get?_setItem_self]
  · exact Dict.get?_setItem_of_ne _ _ hkey

end Bookkeeping

/-- The sources are of the same objects, and those of `s` track each key once. -/
structure Heap.Books (h h₁ : Heap O α) (s : ℕ) : Prop where
  obj : ∀ s', (h₁.sources s').obj = (h.sources s').obj
  nodupEntities : ((h₁.sources s).relatedEntities.map Prod.fst).Nodup
  nodupLists : ((h₁.sources s).relatedEntitiesCollections.map Prod.fst).Nodup
  exist : ∀ key l, h₁.trackedList s key = some l → l < h₁.nextList

omit [DecidableEq O] in
theorem root_eq {h h₁ : Heap O α} (hobj : ∀ s', (h₁.sources s').obj = (h.sources s').obj) :
    h₁.root = h.root := funext fun entity => hobj entity.source

omit [DecidableEq O] in
theorem related_eq {h h₁ : Heap O α} (hroot : h₁.root = h.root) (entity : Option EntityProxy) :
    h₁.related entity = h.related entity := by
  cases entity with
  | none => rfl
  | some entity => exact congrArg Value.obj (congrFun hroot entity)

omit [DecidableEq O] in
theorem collection_eq {h h₁ : Heap O α} (hroot : h₁.root = h.root) {l l' : ℕ}
    (hlists : h₁.lists l = h.lists l') : h₁.collection l = h.collection l' := by
  rw [Heap.collection, Heap.collection, hlists, hroot]

omit [DecidableEq O] in
/-- Each key is untouched or agrees. -/
theorem Heap.Tracks.step {h h' : Heap O α} {s : ℕ} (ht : h.Tracks s) (hbooks : h.Books h' s)
    (heach : ∀ key, h.Untouched h' s key ∨ h'.Agrees s key (h'.attrs (h.sources s).obj key)) :
    h'.Tracks s := by
  refine ⟨fun key => ?_, hbooks.nodupEntities, hbooks.nodupLists, hbooks.exist⟩
  rw [hbooks.obj s]
  rcases heach key with ⟨hattrs, hentity, hlist⟩ | hagrees
  · have hroot := root_eq hbooks.obj
    obtain ⟨hone, hmany⟩ := ht.agrees key
    refine ⟨fun entity htracked => ?_, fun l htracked => ?_⟩
    · rw [hattrs, hone entity (hentity ▸ htracked), related_eq hroot]
    · rw [htracked, Option.map_some] at hlist
      obtain ⟨l', htracked', hl'⟩ := Option.map_eq_some_iff.mp hlist.symm
      rw [hattrs, hmany l' htracked', collection_eq hroot hl'.symm]
  · exact hagrees

section Books

variable {h : Heap O α} {s : ℕ} (ht : h.Tracks s)

include ht

omit [DecidableEq O] in
theorem books_trackEntity (key : String) (entity : Option EntityProxy) :
    h.Books (h.trackEntity s key entity) s where
  obj := obj_trackEntity h s key entity
  nodupEntities := by
    rw [Heap.trackEntity, sources_setSource]
    exact Dict.nodup_setItem ht.nodupEntities key entity
  nodupLists := by
    rw [Heap.trackEntity, sources_setSource]
    exact ht.nodupLists
  exist := fun key' l hl => ht.exist key' l (by rwa [trackedList_trackEntity] at hl)

omit [DecidableEq O] in
theorem books_trackList (key : String) {l : ℕ} (hl : l < h.nextList) :
    h.Books (h.trackList s key l) s where
  obj := obj_trackList h s key l
  nodupEntities := by
    rw [Heap.trackList, sources_setSource]
    exact ht.nodupEntities
  nodupLists := by
    rw [Heap.trackList, sources_setSource]
    exact Dict.nodup_setItem ht.nodupLists key l
  exist := by
    intro key' l' hl'
    rw [trackedList_trackList] at hl'
    split_ifs at hl' with hkey
    · exact Option.some.inj hl' ▸ hl
    · exact ht.exist key' l' hl'

omit [DecidableEq O] in
theorem books_trackNew (key : String) (entities : List EntityProxy) :
    h.Books (h.trackNew s key entities) s where
  obj := obj_trackNew h s key entities
  nodupEntities := by
    rw [Heap.trackNew, Heap.trackList]
    dsimp only
    rw [sources_setSource]
    exact ht.nodupEntities
  nodupLists := by
    rw [Heap.trackNew, Heap.trackList]
    dsimp only
    rw [sources_setSource]
    exact Dict.nodup_setItem ht.nodupLists key h.nextList
  exist := by
    intro key' l hl
    have hl : ((h.setList h.nextList entities).trackList s key h.nextList).trackedList s key' =
        some l := hl
    rw [trackedList_trackList] at hl
    split_ifs at hl with hkey
    · exact Option.some.inj hl ▸ Nat.lt_succ_self _
    · exact Nat.lt_succ_of_lt (ht.exist key' l hl)

end Books

/-! ## Rebuilding apart from an object -/

/-- The heap is as `h₁` but for the attributes of other objects than `o`, and for assignments of
what an attribute is. -/
structure Heap.Kept (o : O) (h₁ h : Heap O α) : Prop where
  sources : h.sources = h₁.sources
  lists : h.lists = h₁.lists
  nextList : h.nextList = h₁.nextList
  attrs : ∀ key, h.attrs o key = h₁.attrs o key

/-- Nothing is assigned to `o` either. -/
structure Heap.Same (o : O) (h₁ h : Heap O α) : Prop extends Heap.Kept o h₁ h where
  assigned : ∀ key, h.assigned o key = h₁.assigned o key

omit [DecidableEq O] in
theorem Heap.Same.refl (o : O) (h : Heap O α) : h.Same o h :=
  ⟨⟨rfl, rfl, rfl, fun _ => rfl⟩, fun _ => rfl⟩

theorem Heap.Kept.setattr {o : O} {h₁ h : Heap O α} (hkept : h₁.Kept o h) {o' : O} {key : String}
    {value : Value O α} (hvalue : o' = o → value = h₁.attrs o key) :
    h₁.Kept o (h.setattr o' key value) := by
  refine ⟨hkept.sources, hkept.lists, hkept.nextList, fun key' => ?_⟩
  show (if o = o' ∧ key' = key then value else h.attrs o key') = _
  split_ifs with h
  · rw [hvalue h.1.symm, h.2]
  · exact hkept.attrs key'

theorem Heap.Same.setattr {o o' : O} {h₁ h : Heap O α} (hsame : h₁.Same o h) (ho : o' ≠ o)
    (key : String) (value : Value O α) : h₁.Same o (h.setattr o' key value) where
  toKept := hsame.toKept.setattr fun h => absurd h ho
  assigned := fun key' => (if_neg fun h => ho h.1.symm).trans (hsame.assigned key')

theorem Heap.Apart.builds {I : Heap O α → Prop} {h₁ : Heap O α} {o : O}
    (hI : ∀ o', o' ≠ o → ∀ key value h, I h → I (h.setattr o' key value)) {limit s : ℕ}
    (h : h₁.Apart o limit s) : Builds I h₁ limit s := by
  induction limit generalizing s with
  | zero => exact h
  | succ limit ih =>
    exact ⟨fun item _ => hI _ h.1 item.1 item.2, fun entity hentity => ih (h.2 entity hentity)⟩

theorem Heap.Apart.rebuilds {h₁ : Heap O α} {o : O} {limit : ℕ} {entity : EntityProxy}
    (h : h₁.Apart o limit entity.source) :
    Rebuilds (h₁.Same o) (buildRoot limit) (h₁.root entity) entity.source :=
  (h.builds fun _ ho key value _ hsame => hsame.setattr ho key value).rebuilds
    fun _ hsame => ⟨hsame.sources, hsame.lists⟩

/-! ## One call -/

section Step

variable {h h₁ h' : Heap O α} {s limit : ℕ} {key : String} (ht : h.Tracks s)

include ht

omit [DecidableEq O] in
/-- After the bookkeeping for a key, a value that agrees with it is assigned. -/
theorem Heap.Tracks.assign (key : String) (value : Value O α) (hbooks : h.Books h₁ s)
    (hothers : ∀ key', key' ≠ key → h.Untouched h₁ s key') (hown : h₁.Agrees s key value)
    (hsources : h'.sources = h₁.sources) (hlists : h'.lists = h₁.lists)
    (hnext : h'.nextList = h₁.nextList)
    (hattrs : ∀ key', h'.attrs (h.sources s).obj key' =
      if key' = key then value else h₁.attrs (h.sources s).obj key') :
    h'.Tracks s ∧ (h'.sources s).obj = (h.sources s).obj ∧
      (∀ key', some key ≠ some key' → h.Untouched h' s key') ∧
      h'.attrs (h.sources s).obj key = value := by
  have hvalue : h'.attrs (h.sources s).obj key = value := (hattrs key).trans (if_pos rfl)
  have hentity (key' : String) : h'.trackedEntity s key' = h₁.trackedEntity s key' := by
    rw [Heap.trackedEntity, hsources]
    rfl
  have hlist (key' : String) : h'.trackedList s key' = h₁.trackedList s key' := by
    rw [Heap.trackedList, hsources]
    rfl
  have huntouched (key' : String) (hkey : key' ≠ key) : h.Untouched h' s key' := by
    obtain ⟨hattr, htracked, htrackedList⟩ := hothers key' hkey
    refine ⟨?_, (hentity key').trans htracked, ?_⟩
    · rw [hattrs key', if_neg hkey, hattr]
    · rw [hlist key', hlists, htrackedList]
  have hbooks' : h.Books h' s := by
    refine ⟨fun s' => ?_, ?_, ?_, fun key' l hl => ?_⟩
    · rw [hsources, hbooks.obj s']
    · rw [hsources]
      exact hbooks.nodupEntities
    · rw [hsources]
      exact hbooks.nodupLists
    · rw [hnext]
      exact hbooks.exist key' l (hlist key' ▸ hl)
  have hagrees : h'.Agrees s key (h'.attrs (h.sources s).obj key) := by
    have hroot : h'.root = h₁.root := root_eq fun s' => by rw [hsources]
    rw [hvalue]
    refine ⟨fun entity htracked => ?_, fun l htracked => ?_⟩
    · rw [hown.1 entity (hentity key ▸ htracked), related_eq hroot]
    · rw [hown.2 l (hlist key ▸ htracked), collection_eq hroot (congrFun hlists l)]
  refine ⟨ht.step hbooks' fun key' => ?_, hbooks'.obj s, fun key' hkey =>
    huntouched key' fun h => hkey (congrArg some h.symm), hvalue⟩
  by_cases hkey : key' = key
  · exact .inr (hkey ▸ hagrees)
  · exact .inl (huntouched key' hkey)

theorem setRelatedEntity_correct [DecidableEq α] {entity : Option EntityProxy}
    (hfits : (Op.setRelatedEntity key entity : Op O α).Fits limit s h) :
    (Op.setRelatedEntity key entity).Correct limit s h := by
  obtain ⟨hsome, hnolist⟩ := hfits
  obtain ⟨entity, rfl⟩ := Option.ne_none_iff_exists'.mp hsome
  have hbooks := books_trackEntity ht key (some entity)
  have hroot := root_eq hbooks.obj
  refine ⟨(h.trackEntity s key (some entity)).setattr ((h.trackEntity s key (some entity)).sources
    s).obj key (.obj ((h.trackEntity s key (some entity)).root entity)), rfl, ?_⟩
  rw [hbooks.obj s, hroot]
  refine ht.assign key _ hbooks (fun key' hkey => ⟨rfl, ?_, ?_⟩) ⟨fun entity' htracked => ?_,
    fun l htracked => ?_⟩ rfl rfl rfl fun key' => ?_
  · rw [trackedEntity_trackEntity, if_neg hkey]
  · rw [trackedList_trackEntity]
    rfl
  · rw [trackedEntity_trackEntity, if_pos rfl] at htracked
    exact Option.some.inj htracked ▸ (related_eq hroot (some entity)).symm
  · rw [trackedList_trackEntity, hnolist] at htracked
    cases htracked
  · exact if_congr (and_iff_right rfl) rfl rfl

theorem setRelatedEntities_correct [DecidableEq α] {entities : ℕ}
    (hfits : (Op.setRelatedEntities key entities : Op O α).Fits limit s h) :
    (Op.setRelatedEntities key entities).Correct limit s h := by
  obtain ⟨hexists, hnoentity, hapart⟩ := hfits
  have hbooks := books_trackList ht key hexists
  have hroot := root_eq hbooks.obj
  obtain ⟨h₂, hroots, hsame⟩ := buildRoots_ok (h.lists entities)
    (fun entity hentity => (hapart entity hentity).rebuilds) (Heap.Same.refl _ _)
  refine ⟨h₂.setattr (h₂.sources s).obj key
    (.list ((h.lists entities).map (h.trackList s key entities).root)), ?_, ?_⟩
  · show ((buildRoots (buildRoot limit) (h.lists entities) >>= _) (h.trackList s key entities)) = _
    rw [bind_ok hroots]
    rfl
  rw [hsame.sources, hbooks.obj s, hroot]
  refine ht.assign key _ hbooks (fun key' hkey => ⟨rfl, ?_, ?_⟩) ⟨fun entity' htracked => ?_,
    fun l htracked => ?_⟩ hsame.sources hsame.lists hsame.nextList fun key' => ?_
  · rw [trackedEntity_trackList]
  · rw [trackedList_trackList, if_neg hkey]
    rfl
  · rw [trackedEntity_trackList, hnoentity] at htracked
    cases htracked
  · rw [trackedList_trackList, if_pos rfl] at htracked
    exact Option.some.inj htracked ▸ (collection_eq hroot rfl).symm
  · exact if_congr (and_iff_right rfl) rfl (hsame.attrs key')

/-- The entities of a key are put into a new list, and their roots are assigned. -/
theorem trackNew_assign (entities : List EntityProxy) {h₂ : Heap O α}
    (hnoentity : h.trackedEntity s key = none)
    (hsame : (h.trackNew s key entities).Same (h.sources s).obj h₂)
    (hassigned : h' = h₂.setattr (h₂.sources s).obj key
      (.list (entities.map (h.trackNew s key entities).root))) :
    h'.Tracks s ∧ (h'.sources s).obj = (h.sources s).obj ∧
      (∀ key', some key ≠ some key' → h.Untouched h' s key') ∧
      h'.attrs (h.sources s).obj key = .list (entities.map h.root) := by
  have hbooks := books_trackNew ht key entities
  have hroot := root_eq hbooks.obj
  have hlist (key' : String) : (h.trackNew s key entities).trackedList s key' =
      if key' = key then some h.nextList else h.trackedList s key' :=
    trackedList_trackList (h.setList h.nextList entities) s key h.nextList key'
  have hentity (key' : String) :
      (h.trackNew s key entities).trackedEntity s key' = h.trackedEntity s key' :=
    trackedEntity_trackList (h.setList h.nextList entities) s key h.nextList key'
  rw [hassigned, hsame.sources, hbooks.obj s, hroot]
  refine ht.assign key _ hbooks (fun key' hkey => ⟨rfl, hentity key', ?_⟩)
    ⟨fun entity' htracked => ?_, fun l htracked => ?_⟩ hsame.sources hsame.lists hsame.nextList
    fun key' => ?_
  · rw [hlist, if_neg hkey]
    cases hl : h.trackedList s key' with
    | none => rfl
    | some l => exact congrArg some (if_neg (Nat.ne_of_lt (ht.exist key' l hl)))
  · rw [hentity, hnoentity] at htracked
    cases htracked
  · rw [hlist, if_pos rfl] at htracked
    obtain rfl := Option.some.inj htracked
    have hentities : (h.trackNew s key entities).lists h.nextList = entities := if_pos rfl
    rw [Heap.collection, hentities, hroot]
  · exact if_congr (and_iff_right rfl) rfl (hsame.attrs key')

/-- An entity is added to the list of a key, and its root to the objects there. -/
theorem setList_assign {entity : EntityProxy} {l : ℕ} (hlist : h.trackedList s key = some l)
    (hunshared : ∀ key', key' ≠ key → h.trackedList s key' ≠ some l) {h₂ : Heap O α}
    (hsame : (h.setList l (h.lists l ++ [entity])).Same (h.sources s).obj h₂)
    (happended : h' = h₂.appendChild (h.sources s).obj key (h.assigned (h.sources s).obj key)
      ((h.lists l).map h.root) (h.root entity)) :
    h'.Tracks s ∧ (h'.sources s).obj = (h.sources s).obj ∧
      (∀ key', some key ≠ some key' → h.Untouched h' s key') ∧
      h'.attrs (h.sources s).obj key = .list ((h.lists l).map h.root ++ [h.root entity]) := by
  have hattr := (ht.agrees key).2 l hlist
  have hentities : (h.setList l (h.lists l ++ [entity])).lists l = h.lists l ++ [entity] :=
    if_pos rfl
  have hbooks : h.Books (h.setList l (h.lists l ++ [entity])) s :=
    ⟨fun _ => rfl, ht.nodupEntities, ht.nodupLists, ht.exist⟩
  have hassigned : h₂.assigned (h.sources s).obj key = h.assigned (h.sources s).obj key :=
    hsame.assigned key
  rw [happended, Heap.appendChild, if_pos hassigned]
  refine ht.assign key _ hbooks (fun key' hkey => ⟨rfl, rfl, ?_⟩) ⟨fun entity' htracked => ?_,
    fun l' htracked => ?_⟩ hsame.sources hsame.lists hsame.nextList fun key' => ?_
  · show (h.trackedList s key').map _ = _
    cases hl : h.trackedList s key' with
    | none => rfl
    | some l' =>
      have hne : l' ≠ l := fun heq => hunshared key' hkey (hl.trans (congrArg some heq))
      exact congrArg some (if_neg hne)
  · have hnone := (ht.agrees key).1 entity' htracked
    rw [hattr] at hnone
    cases entity' <;> cases hnone
  · obtain rfl := Option.some.inj (hlist.symm.trans htracked)
    rw [Heap.collection, hentities, List.map_append]
    rfl
  · exact if_congr (and_iff_right rfl) rfl (hsame.attrs key')

theorem appendRelatedEntity_correct [DecidableEq α] {entity : EntityProxy}
    (hfits : (Op.appendRelatedEntity key entity : Op O α).Fits limit s h) :
    (Op.appendRelatedEntity key entity).Correct limit s h := by
  have hget : (get : Py O α (Heap O α)) h = .ok h h := rfl
  simp only [Op.Fits] at hfits
  cases hlist : h.trackedList s key with
  | none =>
    simp only [hlist] at hfits
    obtain ⟨hnoentity, hempty, hapart⟩ := hfits
    obtain ⟨h₂, hroot, hsame⟩ := hapart.rebuilds _ (Heap.Same.refl _ _)
    obtain ⟨htracks, hobj, huntouched, hvalue⟩ := trackNew_assign ht [entity] hnoentity hsame rfl
    refine ⟨_, ?_, htracks, hobj, huntouched, ?_⟩
    · rw [Op.run, appendRelatedEntity, bind_ok hget]
      rw [show Dict.get? (h.sources s).relatedEntitiesCollections key = none from hlist]
      show (buildRoot limit entity.source >>= _) (h.trackNew s key [entity]) = _
      rw [bind_ok hroot]
      rfl
    · rw [Op.Effect, hvalue, hempty]
      rfl
  | some l =>
    simp only [hlist] at hfits
    obtain ⟨hunshared, hapart⟩ := hfits
    have hattr : h.attrs (h.sources s).obj key = .list ((h.lists l).map h.root) :=
      (ht.agrees key).2 l hlist
    obtain ⟨h₂, hroot, hsame⟩ := hapart.rebuilds _ (Heap.Same.refl _ _)
    obtain ⟨htracks, hobj, huntouched, hvalue⟩ := setList_assign ht hlist hunshared hsame rfl
    let h₁ := h.setList l (h.lists l ++ [entity])
    have hset : (modify fun h => h.setList l (h.lists l ++ [entity]) : Py O α PUnit) h =
      .ok ⟨⟩ h₁ := rfl
    have hget₁ : (get : Py O α (Heap O α)) h₁ = .ok h₁ h₁ := rfl
    refine ⟨_, ?_, htracks, hobj, huntouched, ?_⟩
    · rw [Op.run, appendRelatedEntity, bind_ok hget]
      rw [show Dict.get? (h.sources s).relatedEntitiesCollections key = some l from hlist]
      dsimp only
      rw [bind_ok hset, bind_ok hget₁, show h₁.attrs (h₁.sources s).obj key = _ from hattr]
      dsimp only
      rw [bind_ok hroot]
      rfl
    · rw [Op.Effect, hvalue, hattr]
      rfl

theorem removeEntityFromCollection_correct [DecidableEq α] {entityId : Value O α}
    (hfits : (Op.removeEntityFromCollection key entityId : Op O α).Fits limit s h) :
    (Op.removeEntityFromCollection key entityId).Correct limit s h := by
  have hget : (get : Py O α (Heap O α)) h = .ok h h := rfl
  simp only [Op.Fits] at hfits
  cases hlist : h.trackedList s key with
  | none =>
    simp only [hlist] at hfits
    refine ⟨h, ?_, ht, rfl, fun _ _ => ⟨rfl, rfl, rfl⟩, ?_⟩
    · rw [Op.run, removeEntityFromCollection, bind_ok hget]
      rw [show Dict.get? (h.sources s).relatedEntitiesCollections key = none from hlist]
      rfl
    · exact (List.filter_eq_self.mpr fun o ho => decide_eq_true (hfits o ho)).symm
  | some l =>
    simp only [hlist] at hfits
    have hattr : h.attrs (h.sources s).obj key = .list ((h.lists l).map h.root) :=
      (ht.agrees key).2 l hlist
    have hnoentity : h.trackedEntity s key = none := by
      by_contra htracked
      obtain ⟨entity, htracked⟩ := Option.ne_none_iff_exists'.mp htracked
      have hone := (ht.agrees key).1 entity htracked
      rw [hattr] at hone
      cases entity <;> cases hone
    obtain ⟨h₂, hroots, hsame⟩ := buildRoots_ok _
      (fun entity hentity => (hfits entity hentity).rebuilds) (Heap.Same.refl _ _)
    obtain ⟨htracks, hobj, huntouched, hvalue⟩ := trackNew_assign ht _ hnoentity hsame rfl
    refine ⟨_, ?_, htracks, hobj, huntouched, ?_⟩
    · rw [Op.run, removeEntityFromCollection, bind_ok hget]
      rw [show Dict.get? (h.sources s).relatedEntitiesCollections key = some l from hlist]
      show (buildRoots (buildRoot limit) _ >>= _) (h.trackNew s key _) = _
      rw [bind_ok hroots]
      rfl
    · rw [Op.Effect, hvalue, hattr]
      show _ = ((h.lists l).map h.root).filter _
      rw [List.filter_map]
      rfl

theorem buildRoot_correct [DecidableEq α] (hfits : (Op.buildRoot : Op O α).Fits limit s h) :
    (Op.buildRoot : Op O α).Correct limit s h := by
  obtain ⟨depth, rfl, hapart⟩ := hfits
  have hitems : ∀ item ∈ h.items s, item.2 = h.attrs (h.sources s).obj item.1 := by
    intro item hitem
    rcases List.mem_append.mp hitem with hitem | hitem
    · obtain ⟨entry, hentry, rfl⟩ := List.mem_map.mp hitem
      exact ((ht.agrees entry.1).1 entry.2 (Dict.get?_of_mem ht.nodupEntities hentry)).symm
    · obtain ⟨entry, hentry, rfl⟩ := List.mem_map.mp hitem
      exact ((ht.agrees entry.1).2 entry.2 (Dict.get?_of_mem ht.nodupLists hentry)).symm
  have hbuilds : Builds (h.Kept (h.sources s).obj) h (depth + 1) s :=
    ⟨fun item hitem _ hkept => hkept.setattr fun _ => hitems item hitem,
      fun entity hentity => (hapart entity hentity).builds
        fun _ ho _ _ _ hkept => hkept.setattr fun h => absurd h ho⟩
  obtain ⟨h', hroot, hkept⟩ := hbuilds.rebuilds (fun _ hkept => ⟨hkept.sources, hkept.lists⟩) h
    ⟨rfl, rfl, rfl, fun _ => rfl⟩
  have huntouched (key : String) : h.Untouched h' s key := by
    refine ⟨hkept.attrs key, ?_, ?_⟩
    · rw [Heap.trackedEntity, hkept.sources]
      rfl
    · rw [Heap.trackedList, hkept.sources, hkept.lists]
      rfl
  have hbooks : h.Books h' s := by
    refine ⟨fun s' => by rw [hkept.sources], ?_, ?_, fun key l hl => ?_⟩
    · rw [hkept.sources]
      exact ht.nodupEntities
    · rw [hkept.sources]
      exact ht.nodupLists
    · rw [hkept.nextList]
      rw [Heap.trackedList, hkept.sources] at hl
      exact ht.exist key l hl
  refine ⟨h', ?_, ht.step hbooks fun key => .inl (huntouched key), hbooks.obj s,
    fun key _ => huntouched key, trivial⟩
  rw [Op.run, bind_ok hroot]
  rfl

end Step

/-! ## Runs -/

/-- The heap after a call, whether or not it raised. -/
def Op.after [DecidableEq α] (limit s : ℕ) (h : Heap O α) (op : Op O α) : Heap O α :=
  match op.run limit s h with
  | .ok _ h' => h'
  | .error _ h' => h'

/-- Each call of a run is as `P` says of the heap before it. -/
def Throughout [DecidableEq α] (limit s : ℕ) (P : Heap O α → Op O α → Prop) :
    Heap O α → List (Op O α) → Prop
  | _, [] => True
  | h, op :: ops => P h op ∧ Throughout limit s P (op.after limit s h) ops

theorem Heap.Tracks.correct [DecidableEq α] {h : Heap O α} {limit s : ℕ} (ht : h.Tracks s)
    {op : Op O α} (hfits : op.Fits limit s h) : op.Correct limit s h := by
  cases op with
  | setRelatedEntity key entity => exact setRelatedEntity_correct ht hfits
  | setRelatedEntities key entities => exact setRelatedEntities_correct ht hfits
  | appendRelatedEntity key entity => exact appendRelatedEntity_correct ht hfits
  | removeEntityFromCollection key entityId => exact removeEntityFromCollection_correct ht hfits
  | buildRoot => exact buildRoot_correct ht hfits

theorem Heap.Tracks.run [DecidableEq α] {h : Heap O α} {limit s : ℕ} (ht : h.Tracks s)
    {ops : List (Op O α)} (hfits : Throughout limit s (fun h op => op.Fits limit s h) h ops) :
    Throughout limit s (fun h op => op.Correct limit s h) h ops := by
  induction ops generalizing h with
  | nil => trivial
  | cons op ops ih =>
    obtain ⟨hfit, hrest⟩ := hfits
    have hcorrect := ht.correct hfit
    obtain ⟨h', hrun, ht', -⟩ := hcorrect
    refine ⟨ht.correct hfit, ?_⟩
    have hafter : op.after limit s h = h' := by
      rw [Op.after, hrun]
    rw [hafter] at hrest ⊢
    exact ih ht' hrest

/-- **In every run of calls on a new source that fit the state before them, each call returns, what
is tracked agrees with the object, an append adds one object at the end, a removal takes out those
with the id, and other keys are untouched.** -/
theorem calls_correct [DecidableEq α] (limit s : ℕ) (h : Heap O α) (o : O)
    (hnew : h.sources s = { obj := o }) (ops : List (Op O α))
    (hfits : Throughout limit s (fun h op => op.Fits limit s h) h ops) :
    Throughout limit s (fun h op => op.Correct limit s h) h ops := by
  refine Heap.Tracks.run ⟨fun key => ⟨fun entity htracked => ?_, fun l htracked => ?_⟩, ?_, ?_,
    fun key l htracked => ?_⟩ hfits
  · rw [Heap.trackedEntity, hnew] at htracked
    cases htracked
  · rw [Heap.trackedList, hnew] at htracked
    cases htracked
  · rw [hnew]
    exact List.nodup_nil
  · rw [hnew]
    exact List.nodup_nil
  · rw [Heap.trackedList, hnew] at htracked
    cases htracked

/-- A heap where source `n` is of object `n`, whose id is `n`, and object 0 has two children. -/
def family : Heap ℕ ℕ where
  sources s := { obj := s }
  lists _ := []
  attrs o key :=
    if key = "id" then .other o
    else if o = 0 ∧ key = "codes" then .list [5, 6] else .null
  nextSource := 4
  nextList := 0

def familyCalls : List (Op ℕ ℕ) :=
  [.setRelatedEntity "profile" (some ⟨1⟩), .appendRelatedEntity "sessions" ⟨2⟩,
    .appendRelatedEntity "sessions" ⟨3⟩, .removeEntityFromCollection "sessions" (.other 2),
    .buildRoot]

theorem calls_correct_family :
    Throughout 2 0 (fun h op => op.Correct 2 0 h) family familyCalls := by
  refine calls_correct 2 0 family 0 rfl familyCalls ⟨⟨nofun, rfl⟩, ?_, ?_, ?_, ?_, trivial⟩
  · exact ⟨rfl, rfl, nofun, fun entity hentity => absurd hentity List.not_mem_nil⟩
  · refine ⟨fun key hkey htracked => ?_, nofun,
      fun entity hentity => absurd hentity List.not_mem_nil⟩
    have htracked : Dict.get? [("sessions", 0)] key = some 0 := htracked
    have hother : Dict.get? [("sessions", 0)] key = none := if_neg (Ne.symm hkey)
    cases hother.symm.trans htracked
  · intro entity hentity
    have hentity : entity ∈ [(⟨3⟩ : EntityProxy)] := hentity
    obtain rfl := List.mem_singleton.mp hentity
    exact ⟨nofun, fun entity hentity => absurd hentity List.not_mem_nil⟩
  · refine ⟨1, rfl, fun entity hentity => ?_⟩
    have hentity : entity ∈ [(⟨1⟩ : EntityProxy), ⟨3⟩] := hentity
    rcases List.mem_pair.mp hentity with rfl | rfl
    · exact ⟨nofun, fun entity hentity => absurd hentity List.not_mem_nil⟩
    · exact ⟨nofun, fun entity hentity => absurd hentity List.not_mem_nil⟩

/-- Setting `None` raises, and a first append drops the children that are there. -/
theorem not_calls_correct :
    (∃ h', (Op.setRelatedEntity "profile" none : Op ℕ ℕ).run 2 0 family =
        .error .attributeError h') ∧
      ∃ h', (Op.appendRelatedEntity "codes" ⟨1⟩ : Op ℕ ℕ).run 2 0 family = .ok () h' ∧
        family.attrs 0 "codes" = .list [5, 6] ∧ h'.attrs 0 "codes" = .list [1] :=
  ⟨⟨_, rfl⟩, ⟨_, rfl, rfl, rfl⟩⟩

end ApiTemplate.Entities
