import ApiTemplate.Collections.Depth
import ApiTemplate.Entities.Tracking

/-!
# Sources of loaded objects

`SqlAlchemyEntitySourceFactory.from_source` follows the loaded relationships of an object and
remembers no object that it has seen. It returns, for some depth of recursion, exactly if no loaded
relationships lead back to where they start; a rebuild of the result then leaves the attributes of
every object as they are.
-/

namespace ApiTemplate.Entities

open Relation

variable {O α C D : Type}

/-! ## `factories.py` -/

/-- `mapper.relationships`, what of it is read: `entity` is the class of the related objects. -/
structure Relationship (C : Type) where
  key : String
  entity : C
  uselist : Bool

/-- What `inspect` tells of classes and of objects. Only attributes that are loaded are assigned
here, so `loaded` does not change. -/
structure Inspection (O C : Type) where
  cls : O → C
  relationships : C → List (Relationship C)
  loaded : O → String → Bool

/-- `SqlAlchemyEntitySourceFactory` -/
structure EntitySourceFactory (D C : Type) where
  domainModelOrmMap : List (D × C)

/-- `{v: k for k, v in self._domain_model_orm_map.items()}` -/
def EntitySourceFactory.ormModelDomainEntityMap [DecidableEq C]
    (factory : EntitySourceFactory D C) : List (C × D) :=
  Dict.update [] (factory.domainModelOrmMap.map Prod.swap)

/-- `SqlAlchemyEntitySource(obj=obj)` -/
def newSource (obj : O) : Py O α ℕ :=
  modifyGet fun h =>
    (h.nextSource, { h.setSource h.nextSource { obj := obj } with nextSource := h.nextSource + 1 })

def newList (entities : List EntityProxy) : Py O α ℕ :=
  modifyGet fun h =>
    (h.nextList, { h.setList h.nextList entities with nextList := h.nextList + 1 })

/-- `[entity_cls(self.from_source(obj)) for obj in orm_value]` -/
def fromSources (fromSource : O → Py O α ℕ) : List O → Py O α (List EntityProxy)
  | [] => pure []
  | obj :: objs => do
    let source ← fromSource obj
    let entities ← fromSources fromSource objs
    return ⟨source⟩ :: entities

variable [DecidableEq O]

/-- What is done with the value of a loaded relationship to a mapped class. -/
def relateValue (fromSource : O → Py O α ℕ) (limit src : ℕ) (rel : Relationship C) :
    Value O α → Py O α Unit
  | .null => pure ()
  | .list objs =>
    if rel.uselist then do
      let relatedEntities ← fromSources fromSource objs
      setRelatedEntities limit src rel.key (← newList relatedEntities)
    else throw .noInspectionAvailable
  | .obj obj =>
    if rel.uselist then throw .typeError
    else do
      let source ← fromSource obj
      setRelatedEntity src rel.key (some ⟨source⟩)
  | .other _ => if rel.uselist then throw .typeError else throw .noInspectionAvailable

variable [DecidableEq C] (factory : EntitySourceFactory D C) (inspect : Inspection O C)

/-- The loop of `from_source` for one relationship; its class is looked up for `None` too. -/
def relate (fromSource : O → Py O α ℕ) (limit src : ℕ) (dataSource : O) (rel : Relationship C) :
    Py O α Unit :=
  if inspect.loaded dataSource rel.key ∧
      (Dict.get? factory.ormModelDomainEntityMap rel.entity).isSome then do
    relateValue fromSource limit src rel ((← get).attrs dataSource rel.key)
  else pure ()

def relateAll (fromSource : O → Py O α ℕ) (limit src : ℕ) (dataSource : O) :
    List (Relationship C) → Py O α Unit
  | [] => pure ()
  | rel :: rels => do
    relate factory inspect fromSource limit src dataSource rel
    relateAll fromSource limit src dataSource rels

def fromSource : ℕ → O → Py O α ℕ
  | 0, _ => throw .recursionError
  | limit + 1, dataSource => do
    let src ← newSource dataSource
    relateAll factory inspect (fromSource limit) limit src dataSource
      (inspect.relationships (inspect.cls dataSource))
    return src

/-- A loaded relationship to a mapped class has the object `obj'`. -/
def Leads (attrs : O → String → Value O α) (obj : O) (rel : Relationship C) (obj' : O) : Prop :=
  (inspect.loaded obj rel.key ∧ (Dict.get? factory.ormModelDomainEntityMap rel.entity).isSome) ∧
    obj' ∈ (attrs obj rel.key).members

/-- One object refers to another. -/
def Refers (attrs : O → String → Value O α) (obj obj' : O) : Prop :=
  ∃ rel ∈ inspect.relationships (inspect.cls obj), Leads factory inspect attrs obj rel obj'

/-- A relationship that is loaded has a list of objects exactly if it uses one. -/
def Value.Fits (uselist : Bool) : Value O α → Prop
  | .null => True
  | .obj _ => uselist = false
  | .list _ => uselist = true
  | .other _ => False

/-! ## Heaps that grow -/

section Growth

omit [DecidableEq O] [DecidableEq C]

/-- What is there stays, but for what `s` tracks. -/
structure Heap.Extends (h : Heap O α) (s : ℕ) (h' : Heap O α) : Prop where
  attrs : h'.attrs = h.attrs
  sources : ∀ s' < h.nextSource, s' ≠ s → h'.sources s' = h.sources s'
  lists : ∀ l < h.nextList, h'.lists l = h.lists l
  nextSource : h.nextSource ≤ h'.nextSource
  nextList : h.nextList ≤ h'.nextList

variable {h h₁ h₂ h' : Heap O α} {s c d : ℕ}

theorem Heap.Extends.refl (h : Heap O α) (s : ℕ) : h.Extends s h :=
  ⟨rfl, fun _ _ _ => rfl, fun _ _ => rfl, le_rfl, le_rfl⟩

theorem Heap.Extends.trans (hfirst : h.Extends s h₁) (hthen : h₁.Extends s h₂) :
    h.Extends s h₂ where
  attrs := hthen.attrs.trans hfirst.attrs
  sources := fun s' hs' hne =>
    (hthen.sources s' (Nat.lt_of_lt_of_le hs' hfirst.nextSource) hne).trans
      (hfirst.sources s' hs' hne)
  lists := fun l hl =>
    (hthen.lists l (Nat.lt_of_lt_of_le hl hfirst.nextList)).trans (hfirst.lists l hl)
  nextSource := hfirst.nextSource.trans hthen.nextSource
  nextList := hfirst.nextList.trans hthen.nextList

/-- A source that was not there is no exception. -/
theorem Heap.Extends.of_fresh (hextends : h.Extends h.nextSource h') (s : ℕ) : h.Extends s h' :=
  ⟨hextends.attrs, fun s' hs' _ => hextends.sources s' hs' (Nat.ne_of_lt hs'), hextends.lists,
    hextends.nextSource, hextends.nextList⟩

theorem Heap.Extends.source (hextends : h.Extends s h') (hc : c < h.nextSource)
    (hs : s < c ∨ h.nextSource ≤ s) : h'.sources c = h.sources c := by
  refine hextends.sources c hc ?_
  rcases hs with hs | hs
  · exact Nat.ne_of_gt hs
  · exact Nat.ne_of_lt (Nat.lt_of_lt_of_le hc hs)

/-! ## Sources that mirror their objects -/

/-- The attribute is what a tracked entity says, and the source of the entity is as `below` says. -/
def Heap.MirrorsEntity (h : Heap O α) (below : ℕ → Prop) (o : O)
    (item : String × Option EntityProxy) : Prop :=
  h.attrs o item.1 = h.related item.2 ∧ ∀ entity, item.2 = some entity → below entity.source

def Heap.MirrorsList (h : Heap O α) (below : ℕ → Prop) (o : O) (item : String × ℕ) : Prop :=
  item.2 < h.nextList ∧ h.attrs o item.1 = h.collection item.2 ∧
    ∀ entity ∈ h.lists item.2, below entity.source

/-- Down to a bounded depth, what a source tracks is what the attributes are; those below have
higher numbers. -/
def Heap.Mirrors (h : Heap O α) : ℕ → ℕ → Prop
  | 0, _ => False
  | d + 1, s => s < h.nextSource ∧
      (∀ item ∈ (h.sources s).relatedEntities,
        h.MirrorsEntity (fun c => s < c ∧ h.Mirrors d c) (h.sources s).obj item) ∧
      ∀ item ∈ (h.sources s).relatedEntitiesCollections,
        h.MirrorsList (fun c => s < c ∧ h.Mirrors d c) (h.sources s).obj item

theorem Heap.Mirrors.lt (hmirrors : h.Mirrors d s) : s < h.nextSource := by
  cases d with
  | zero => exact hmirrors.elim
  | succ d => exact hmirrors.1

section Extends

variable {below below' : ℕ → Prop} {o : O}
  (hbelow : ∀ c, below c → below' c ∧ h'.sources c = h.sources c)

include hbelow

theorem Heap.MirrorsEntity.extends (hattrs : h'.attrs = h.attrs)
    {item : String × Option EntityProxy} (hitem : h.MirrorsEntity below o item) :
    h'.MirrorsEntity below' o item := by
  obtain ⟨key, entity⟩ := item
  obtain ⟨hattr, hentity⟩ := hitem
  refine ⟨?_, fun entity heq => (hbelow _ (hentity entity heq)).1⟩
  rw [hattrs, hattr]
  cases entity with
  | none => rfl
  | some entity =>
    rw [Heap.related, Heap.related, Heap.root, Heap.root, (hbelow _ (hentity entity rfl)).2]

theorem Heap.MirrorsList.extends (hextends : h.Extends s h') {item : String × ℕ}
    (hitem : h.MirrorsList below o item) : h'.MirrorsList below' o item := by
  obtain ⟨hl, hattr, hentities⟩ := hitem
  refine ⟨Nat.lt_of_lt_of_le hl hextends.nextList, ?_, fun entity hentity => ?_⟩
  · rw [hextends.attrs, hattr, Heap.collection, Heap.collection, hextends.lists _ hl]
    refine congrArg Value.list (List.map_congr_left fun entity hentity => ?_)
    rw [Heap.root, Heap.root, (hbelow _ (hentities entity hentity)).2]
  · rw [hextends.lists _ hl] at hentity
    exact (hbelow _ (hentities entity hentity)).1

end Extends

theorem Heap.Mirrors.extends (hextends : h.Extends s h') (hmirrors : h.Mirrors d c)
    (hs : s < c ∨ h.nextSource ≤ s) : h'.Mirrors d c := by
  induction d generalizing c with
  | zero => exact hmirrors
  | succ d ih =>
    obtain ⟨hc, hentities, hlists⟩ := hmirrors
    have hsource := hextends.source hc hs
    have hbelow (c' : ℕ) (hc' : c < c' ∧ h.Mirrors d c') :
        (c < c' ∧ h'.Mirrors d c') ∧ h'.sources c' = h.sources c' := by
      have hs' : s < c' ∨ h.nextSource ≤ s := hs.imp_left fun hs => hs.trans hc'.1
      exact ⟨⟨hc'.1, ih hc'.2 hs'⟩, hextends.source hc'.2.lt hs'⟩
    refine ⟨Nat.lt_of_lt_of_le hc hextends.nextSource, fun item hitem => ?_, fun item hitem => ?_⟩
    · rw [hsource] at hitem ⊢
      exact (hentities item hitem).extends hbelow hextends.attrs
    · rw [hsource] at hitem ⊢
      exact (hlists item hitem).extends hbelow hextends

/-- After some entries are set, a source mirrors its object as before. -/
theorem Heap.Mirrors.track (hmirrors : h.Mirrors (d + 1) s) (hextends : h.Extends s h')
    (hobj : (h'.sources s).obj = (h.sources s).obj)
    (hentities : ∀ item ∈ (h'.sources s).relatedEntities,
      item ∈ (h.sources s).relatedEntities ∨
        h'.MirrorsEntity (fun c => s < c ∧ h'.Mirrors d c) (h.sources s).obj item)
    (hlists : ∀ item ∈ (h'.sources s).relatedEntitiesCollections,
      item ∈ (h.sources s).relatedEntitiesCollections ∨
        h'.MirrorsList (fun c => s < c ∧ h'.Mirrors d c) (h.sources s).obj item) :
    h'.Mirrors (d + 1) s := by
  obtain ⟨hs, hentities₀, hlists₀⟩ := hmirrors
  have hbelow (c : ℕ) (hc : s < c ∧ h.Mirrors d c) :
      (s < c ∧ h'.Mirrors d c) ∧ h'.sources c = h.sources c :=
    ⟨⟨hc.1, hc.2.extends hextends (.inl hc.1)⟩, hextends.source hc.2.lt (.inl hc.1)⟩
  refine ⟨Nat.lt_of_lt_of_le hs hextends.nextSource, fun item hitem => ?_, fun item hitem => ?_⟩
  · rw [hobj]
    rcases hentities item hitem with hold | hnew
    · exact (hentities₀ item hold).extends hbelow hextends.attrs
    · exact hnew
  · rw [hobj]
    rcases hlists item hitem with hold | hnew
    · exact (hlists₀ item hold).extends hbelow hextends
    · exact hnew

end Growth

/-! ## Rebuilding a source that mirrors its object -/

/-- Only assignments of what attributes are have been made. -/
structure Heap.Alike (h h' : Heap O α) : Prop where
  sources : h'.sources = h.sources
  lists : h'.lists = h.lists
  attrs : h'.attrs = h.attrs
  nextSource : h'.nextSource = h.nextSource
  nextList : h'.nextList = h.nextList

omit [DecidableEq O] in
theorem Heap.Alike.refl (h : Heap O α) : h.Alike h := ⟨rfl, rfl, rfl, rfl, rfl⟩

theorem Heap.Alike.setattr {h h' : Heap O α} (halike : h.Alike h') {o : O} {key : String}
    {value : Value O α} (hvalue : h.attrs o key = value) : h.Alike (h'.setattr o key value) := by
  refine ⟨halike.sources, halike.lists, ?_, halike.nextSource, halike.nextList⟩
  funext o' key'
  show (if o' = o ∧ key' = key then value else h'.attrs o' key') = h.attrs o' key'
  split_ifs with heq
  · rw [heq.1, heq.2, hvalue]
  · rw [halike.attrs]

omit [DecidableEq O] in
theorem Heap.Alike.extends {h h' : Heap O α} (halike : h.Alike h') (s : ℕ) : h.Extends s h' where
  attrs := halike.attrs
  sources := fun s' _ _ => congrFun halike.sources s'
  lists := fun l _ => congrFun halike.lists l
  nextSource := halike.nextSource.ge
  nextList := halike.nextList.ge

theorem Heap.Mirrors.builds {h : Heap O α} {d s : ℕ} (hmirrors : h.Mirrors d s) :
    Builds h.Alike h d s := by
  induction d generalizing s with
  | zero => exact hmirrors
  | succ d ih =>
    obtain ⟨-, hentities, hlists⟩ := hmirrors
    refine ⟨fun item hitem h' halike => halike.setattr ?_, fun entity hentity => ?_⟩
    · rcases List.mem_append.mp hitem with hitem | hitem
      · obtain ⟨entry, hentry, rfl⟩ := List.mem_map.mp hitem
        exact (hentities entry hentry).1
      · obtain ⟨entry, hentry, rfl⟩ := List.mem_map.mp hitem
        exact (hlists entry hentry).2.1
    · rcases List.mem_append.mp hentity with hentity | hentity
      · obtain ⟨entry, hentry, heq⟩ := List.mem_filterMap.mp hentity
        exact ih ((hentities entry hentry).2 entity heq).2
      · obtain ⟨entry, hentry, hmem⟩ := List.mem_flatMap.mp hentity
        exact ih ((hlists entry hentry).2.2 entity hmem).2

theorem Heap.Mirrors.rebuilds {h : Heap O α} {d s : ℕ} (hmirrors : h.Mirrors d s) :
    Rebuilds h.Alike (buildRoot d) (h.sources s).obj s :=
  hmirrors.builds.rebuilds fun _ halike => ⟨halike.sources, halike.lists⟩

/-! ## A source under construction -/

section Fills

omit [DecidableEq O]

/-- What holds of the source of an object while its relationships are gone through. -/
structure Heap.Fills (h : Heap O α) (attrs : O → String → Value O α) (limit s : ℕ) (o : O) :
    Prop where
  attrs : h.attrs = attrs
  obj : (h.sources s).obj = o
  mirrors : h.Mirrors (limit + 1) s

variable {attrs : O → String → Value O α} {h h' : Heap O α} {limit s : ℕ} {o : O}
  (hfills : h.Fills attrs limit s o)

include hfills

theorem Heap.Fills.extends (hextends : h.Extends h.nextSource h') : h'.Fills attrs limit s o where
  attrs := hextends.attrs.trans hfills.attrs
  obj := by rw [hextends.source hfills.mirrors.lt (.inr le_rfl), hfills.obj]
  mirrors := hfills.mirrors.extends hextends (.inr le_rfl)

theorem Heap.Fills.trackEntity {key : String} {c : ℕ} (hc : s < c) (hmirrors : h.Mirrors limit c)
    (hvalue : attrs o key = .obj (h.root ⟨c⟩)) :
    h.Extends s (h.trackEntity s key (some ⟨c⟩)) ∧
      (h.trackEntity s key (some ⟨c⟩)).Fills attrs limit s o := by
  have hobj := obj_trackEntity h s key (some ⟨c⟩)
  have hsource : (h.trackEntity s key (some ⟨c⟩)).sources s = _ := sources_setSource h s _
  have hextends : h.Extends s (h.trackEntity s key (some ⟨c⟩)) :=
    ⟨rfl, fun _ _ hne => if_neg hne, fun _ _ => rfl, le_rfl, le_rfl⟩
  refine ⟨hextends, hfills.attrs, (hobj s).trans hfills.obj, hfills.mirrors.track hextends (hobj s)
    (fun item hitem => ?_) fun item hitem => .inl ?_⟩
  · rw [hsource] at hitem
    refine (Dict.eq_or_mem_of_mem_setItem hitem).symm.imp_right fun heq => ?_
    subst heq
    refine ⟨?_, fun entity heq => ?_⟩
    · show h.attrs _ key = .obj (Heap.root _ ⟨c⟩)
      rw [hfills.attrs, hfills.obj, hvalue, root_eq hobj]
    · obtain rfl := Option.some.inj heq
      exact ⟨hc, hmirrors.extends hextends (.inl hc)⟩
  · rw [hsource] at hitem
    exact hitem

theorem Heap.Fills.trackNew {key : String} {entities : List EntityProxy}
    (hentities : ∀ entity ∈ entities, s < entity.source ∧ h.Mirrors limit entity.source)
    (hvalue : attrs o key = .list (entities.map h.root)) :
    h.Extends s (h.trackNew s key entities) ∧
      (h.trackNew s key entities).Fills attrs limit s o := by
  have hobj := obj_trackNew h s key entities
  have hsource : (h.trackNew s key entities).sources s = _ :=
    sources_setSource (h.setList h.nextList entities) s _
  have hlist : (h.trackNew s key entities).lists h.nextList = entities := if_pos rfl
  have hextends : h.Extends s (h.trackNew s key entities) :=
    ⟨rfl, fun _ _ hne => if_neg hne, fun _ hl => if_neg (Nat.ne_of_lt hl), le_rfl, Nat.le_succ _⟩
  refine ⟨hextends, hfills.attrs, (hobj s).trans hfills.obj, hfills.mirrors.track hextends (hobj s)
    (fun item hitem => .inl ?_) fun item hitem => ?_⟩
  · rw [hsource] at hitem
    exact hitem
  · rw [hsource] at hitem
    refine (Dict.eq_or_mem_of_mem_setItem hitem).symm.imp_right fun heq => ?_
    subst heq
    refine ⟨Nat.lt_succ_self _, ?_, fun entity hentity => ?_⟩
    · show h.attrs _ key = Heap.collection _ h.nextList
      rw [Heap.collection, hlist, root_eq hobj, hfills.attrs, hfills.obj, hvalue]
    · rw [hlist] at hentity
      obtain ⟨hlt, hmirrors⟩ := hentities entity hentity
      exact ⟨hlt, hmirrors.extends hextends (.inl hlt)⟩

end Fills

/-! ## One relationship -/

/-- What the code does for an object at a depth: a source that mirrors it, or no end of the
recursion where more depth is needed. -/
structure Recurs (factory : EntitySourceFactory D C) (inspect : Inspection O C)
    (attrs : O → String → Value O α) (limit : ℕ) (fromSource : O → Py O α ℕ) : Prop where
  makes : ∀ obj, Depth.Below (Refers factory inspect attrs) limit obj → ∀ h, h.attrs = attrs →
    ∃ h', fromSource obj h = .ok h.nextSource h' ∧ h.Extends h.nextSource h' ∧
      (h'.sources h.nextSource).obj = obj ∧ h'.Mirrors limit h.nextSource
  fails : ∀ obj, ¬Depth.Below (Refers factory inspect attrs) limit obj → ∀ h, h.attrs = attrs →
    ∃ h', fromSource obj h = .error .recursionError h'

section Relate

variable {factory inspect} {attrs : O → String → Value O α} {limit s : ℕ} {h : Heap O α}
  {fromSource : O → Py O α ℕ} (hrecurs : Recurs factory inspect attrs limit fromSource)

include hrecurs

omit [DecidableEq O] in
theorem fromSources_ok (objs : List O)
    (hbelow : ∀ obj ∈ objs, Depth.Below (Refers factory inspect attrs) limit obj)
    (hattrs : h.attrs = attrs) :
    ∃ entities h', fromSources fromSource objs h = .ok entities h' ∧ h.Extends h.nextSource h' ∧
      entities.map h'.root = objs ∧
      ∀ entity ∈ entities, h.nextSource ≤ entity.source ∧ h'.Mirrors limit entity.source := by
  induction objs generalizing h with
  | nil => exact ⟨[], h, rfl, .refl h _, rfl, nofun⟩
  | cons obj objs ih =>
    obtain ⟨h₁, hmade, hextends, hobj, hmirrors⟩ :=
      hrecurs.makes obj (hbelow obj List.mem_cons_self) h hattrs
    obtain ⟨entities, h₂, hrest, hextends', hroots, hentities⟩ :=
      ih (fun obj hmem => hbelow obj (List.mem_cons_of_mem _ hmem)) (hextends.attrs.trans hattrs)
    refine ⟨⟨h.nextSource⟩ :: entities, h₂, ?_, hextends.trans (hextends'.of_fresh _), ?_, ?_⟩
    · rw [fromSources, bind_ok hmade, bind_ok hrest]
      rfl
    · rw [List.map_cons, hroots, Heap.root, hextends'.source hmirrors.lt (.inr le_rfl), hobj]
    · intro entity hentity
      rcases List.mem_cons.mp hentity with rfl | hentity
      · exact ⟨le_rfl, hmirrors.extends hextends' (.inr le_rfl)⟩
      · obtain ⟨hle, hmirrors'⟩ := hentities entity hentity
        exact ⟨hextends.nextSource.trans hle, hmirrors'⟩

omit [DecidableEq O] in
theorem fromSources_fails (objs : List O)
    (hdeep : ∃ obj ∈ objs, ¬Depth.Below (Refers factory inspect attrs) limit obj)
    (hattrs : h.attrs = attrs) :
    ∃ h', fromSources fromSource objs h = .error .recursionError h' := by
  induction objs generalizing h with
  | nil => obtain ⟨obj, hmem, -⟩ := hdeep; cases hmem
  | cons obj objs ih =>
    by_cases hfirst : Depth.Below (Refers factory inspect attrs) limit obj
    · obtain ⟨h₁, hmade, hextends, -⟩ := hrecurs.makes obj hfirst h hattrs
      have hrest : ∃ obj ∈ objs, ¬Depth.Below (Refers factory inspect attrs) limit obj := by
        obtain ⟨obj', hmem, hnot⟩ := hdeep
        rcases List.mem_cons.mp hmem with rfl | hmem
        · exact absurd hfirst hnot
        · exact ⟨obj', hmem, hnot⟩
      obtain ⟨h₂, hfailed⟩ := ih hrest (hextends.attrs.trans hattrs)
      exact ⟨h₂, by rw [fromSources, bind_ok hmade, bind_error hfailed]⟩
    · obtain ⟨h₁, hfailed⟩ := hrecurs.fails obj hfirst h hattrs
      exact ⟨h₁, by rw [fromSources, bind_error hfailed]⟩

theorem relateValue_obj {rel : Relationship C} {o obj : O} (huselist : rel.uselist = false)
    (hfills : h.Fills attrs limit s o) (hvalue : attrs o rel.key = .obj obj)
    (hbelow : Depth.Below (Refers factory inspect attrs) limit obj) :
    ∃ h', relateValue fromSource limit s rel (.obj obj) h = .ok () h' ∧ h.Extends s h' ∧
      h'.Fills attrs limit s o := by
  obtain ⟨h₁, hmade, hextends₁, hroot, hmirrors⟩ := hrecurs.makes obj hbelow h hfills.attrs
  obtain ⟨hextends₂, hfills₂⟩ := (hfills.extends hextends₁).trackEntity hfills.mirrors.lt hmirrors
    (hvalue.trans (congrArg Value.obj hroot.symm))
  let h₂ := h₁.trackEntity s rel.key (some ⟨h.nextSource⟩)
  have hroot₂ : h₂.root ⟨h.nextSource⟩ = obj := (obj_trackEntity h₁ s rel.key _ _).trans hroot
  have halike : h₂.Alike (h₂.setattr o rel.key (.obj obj)) :=
    (Heap.Alike.refl h₂).setattr (hfills₂.attrs.symm ▸ hvalue)
  refine ⟨h₂.setattr o rel.key (.obj obj), ?_, ?_, hfills₂.extends (halike.extends _)⟩
  · rw [relateValue, if_neg (Bool.eq_false_iff.mp huselist), bind_ok hmade]
    show EStateM.Result.ok () (h₂.setattr (h₂.sources s).obj rel.key (.obj (h₂.root _))) = _
    rw [hfills₂.obj, hroot₂]
  · exact ((hextends₁.of_fresh s).trans hextends₂).trans (halike.extends s)

theorem relateValue_list {rel : Relationship C} {o : O} {objs : List O}
    (huselist : rel.uselist = true) (hfills : h.Fills attrs limit s o)
    (hvalue : attrs o rel.key = .list objs)
    (hbelow : ∀ obj ∈ objs, Depth.Below (Refers factory inspect attrs) limit obj) :
    ∃ h', relateValue fromSource limit s rel (.list objs) h = .ok () h' ∧ h.Extends s h' ∧
      h'.Fills attrs limit s o := by
  obtain ⟨entities, h₁, hmade, hextends₁, hroots₁, hentities⟩ :=
    fromSources_ok hrecurs objs hbelow hfills.attrs
  have hentities (entity : EntityProxy) (hentity : entity ∈ entities) :
      s < entity.source ∧ h₁.Mirrors limit entity.source :=
    (hentities entity hentity).imp_left (Nat.lt_of_lt_of_le hfills.mirrors.lt)
  obtain ⟨hextends₂, hfills₂⟩ :=
    (hfills.extends hextends₁).trackNew hentities (hroots₁.symm ▸ hvalue)
  let h₂ := h₁.trackNew s rel.key entities
  have hroots₂ : entities.map h₂.root = objs := by
    rw [root_eq (obj_trackNew h₁ s rel.key entities), hroots₁]
  have hlist₂ : h₂.lists h₁.nextList = entities := if_pos rfl
  obtain ⟨h₃, hbuilt, halike₃⟩ := buildRoots_ok entities
    (fun entity hentity => ((hentities entity hentity).2.extends hextends₂
      (.inl (hentities entity hentity).1)).rebuilds) (Heap.Alike.refl h₂)
  have halike : h₂.Alike (h₃.setattr o rel.key (.list objs)) :=
    halike₃.setattr (hfills₂.attrs.symm ▸ hvalue)
  refine ⟨h₃.setattr o rel.key (.list objs), ?_, ?_, hfills₂.extends (halike.extends _)⟩
  · rw [relateValue, if_pos huselist, bind_ok hmade]
    show (buildRoots (buildRoot limit) (h₂.lists h₁.nextList) >>= _) h₂ = _
    rw [hlist₂, bind_ok hbuilt, hroots₂]
    show EStateM.Result.ok () (h₃.setattr (h₃.sources s).obj rel.key (.list objs)) = _
    rw [halike₃.sources, hfills₂.obj]
  · exact ((hextends₁.of_fresh s).trans hextends₂).trans (halike.extends s)

theorem relate_ok {rel : Relationship C} {o : O}
    (hfits : inspect.loaded o rel.key → (attrs o rel.key).Fits rel.uselist)
    (hbelow : ∀ obj, Leads factory inspect attrs o rel obj →
      Depth.Below (Refers factory inspect attrs) limit obj)
    (hfills : h.Fills attrs limit s o) :
    ∃ h', relate factory inspect fromSource limit s o rel h = .ok () h' ∧ h.Extends s h' ∧
      h'.Fills attrs limit s o := by
  rw [relate]
  split_ifs with hcond
  · have hfits := hfits hcond.1
    have hbelow (obj : O) (hmem : obj ∈ (attrs o rel.key).members) := hbelow obj ⟨hcond, hmem⟩
    show ∃ h', relateValue fromSource limit s rel (h.attrs o rel.key) h = .ok () h' ∧ _
    rw [hfills.attrs]
    cases hvalue : attrs o rel.key with
    | null => exact ⟨h, rfl, .refl h s, hfills⟩
    | obj obj =>
      rw [hvalue] at hfits hbelow
      exact relateValue_obj hrecurs hfits hfills hvalue (hbelow obj List.mem_cons_self)
    | list objs =>
      rw [hvalue] at hfits hbelow
      exact relateValue_list hrecurs hfits hfills hvalue hbelow
    | other a =>
      rw [hvalue] at hfits
      exact hfits.elim
  · exact ⟨h, rfl, .refl h s, hfills⟩

theorem relate_fails {rel : Relationship C} {o : O}
    (hfits : inspect.loaded o rel.key → (attrs o rel.key).Fits rel.uselist)
    (hdeep : ∃ obj, Leads factory inspect attrs o rel obj ∧
      ¬Depth.Below (Refers factory inspect attrs) limit obj)
    (hattrs : h.attrs = attrs) :
    ∃ h', relate factory inspect fromSource limit s o rel h = .error .recursionError h' := by
  obtain ⟨obj, ⟨hcond, hmem⟩, hnot⟩ := hdeep
  have hfits := hfits hcond.1
  rw [relate, if_pos hcond]
  show ∃ h', relateValue fromSource limit s rel (h.attrs o rel.key) h = .error .recursionError h'
  rw [hattrs]
  cases hvalue : attrs o rel.key with
  | null =>
    rw [hvalue] at hmem
    cases hmem
  | obj obj' =>
    rw [hvalue] at hfits hmem
    obtain rfl := List.mem_singleton.mp hmem
    obtain ⟨h', hfailed⟩ := hrecurs.fails obj hnot h hattrs
    refine ⟨h', ?_⟩
    have huselist : ¬rel.uselist = true := Bool.eq_false_iff.mp hfits
    rw [relateValue, if_neg huselist, bind_error hfailed]
  | list objs =>
    rw [hvalue] at hfits hmem
    obtain ⟨h', hfailed⟩ := fromSources_fails hrecurs objs ⟨obj, hmem, hnot⟩ hattrs
    refine ⟨h', ?_⟩
    have huselist : rel.uselist = true := hfits
    rw [relateValue, if_pos huselist, bind_error hfailed]
  | other a =>
    rw [hvalue] at hfits
    exact hfits.elim

theorem relateAll_ok {o : O} (rels : List (Relationship C))
    (hfits : ∀ rel ∈ rels, inspect.loaded o rel.key → (attrs o rel.key).Fits rel.uselist)
    (hbelow : ∀ rel ∈ rels, ∀ obj, Leads factory inspect attrs o rel obj →
      Depth.Below (Refers factory inspect attrs) limit obj)
    (hfills : h.Fills attrs limit s o) :
    ∃ h', relateAll factory inspect fromSource limit s o rels h = .ok () h' ∧ h.Extends s h' ∧
      h'.Fills attrs limit s o := by
  induction rels generalizing h with
  | nil => exact ⟨h, rfl, .refl h s, hfills⟩
  | cons rel rels ih =>
    obtain ⟨h₁, hfirst, hextends₁, hfills₁⟩ := relate_ok hrecurs (hfits rel List.mem_cons_self)
      (hbelow rel List.mem_cons_self) hfills
    obtain ⟨h₂, hrest, hextends₂, hfills₂⟩ :=
      ih (fun rel hrel => hfits rel (List.mem_cons_of_mem _ hrel))
        (fun rel hrel => hbelow rel (List.mem_cons_of_mem _ hrel)) hfills₁
    exact ⟨h₂, by rw [relateAll, bind_ok hfirst, hrest], hextends₁.trans hextends₂, hfills₂⟩

theorem relateAll_fails {o : O} (rels : List (Relationship C))
    (hfits : ∀ rel ∈ rels, inspect.loaded o rel.key → (attrs o rel.key).Fits rel.uselist)
    (hdeep : ∃ rel ∈ rels, ∃ obj, Leads factory inspect attrs o rel obj ∧
      ¬Depth.Below (Refers factory inspect attrs) limit obj)
    (hfills : h.Fills attrs limit s o) :
    ∃ h', relateAll factory inspect fromSource limit s o rels h = .error .recursionError h' := by
  induction rels generalizing h with
  | nil => obtain ⟨rel, hrel, -⟩ := hdeep; cases hrel
  | cons rel rels ih =>
    have hfits₁ := hfits rel List.mem_cons_self
    by_cases hfirst : ∃ obj, Leads factory inspect attrs o rel obj ∧
      ¬Depth.Below (Refers factory inspect attrs) limit obj
    · obtain ⟨h₁, hfailed⟩ := relate_fails hrecurs hfits₁ hfirst hfills.attrs
      exact ⟨h₁, by rw [relateAll, bind_error hfailed]⟩
    · have hbelow (obj : O) (hleads : Leads factory inspect attrs o rel obj) :
          Depth.Below (Refers factory inspect attrs) limit obj :=
        by_contra fun hnot => hfirst ⟨obj, hleads, hnot⟩
      obtain ⟨h₁, hok, -, hfills₁⟩ := relate_ok hrecurs hfits₁ hbelow hfills
      obtain ⟨rel', hrel', hdeep'⟩ := hdeep
      have hrest : rel' ∈ rels := (List.mem_cons.mp hrel').resolve_left fun heq =>
        hfirst (heq ▸ hdeep')
      obtain ⟨h₂, hfailed⟩ := ih (fun rel hrel => hfits rel (List.mem_cons_of_mem _ hrel))
        ⟨rel', hrest, hdeep'⟩ hfills₁
      exact ⟨h₂, by rw [relateAll, bind_ok hok, hfailed]⟩

end Relate

/-! ## The whole graph -/

section Graph

variable {factory inspect} {attrs : O → String → Value O α}

/-- Loaded relationships have values of their kind. -/
def Inspection.Fits (inspect : Inspection O C) (attrs : O → String → Value O α) : Prop :=
  ∀ obj, ∀ rel ∈ inspect.relationships (inspect.cls obj),
    inspect.loaded obj rel.key → (attrs obj rel.key).Fits rel.uselist

omit [DecidableEq O] in
theorem newSource_fills (h : Heap O α) (limit : ℕ) (obj : O) :
    ∃ h', newSource obj h = .ok h.nextSource h' ∧ h.Extends h.nextSource h' ∧
      h'.Fills h.attrs limit h.nextSource obj := by
  let h' : Heap O α :=
    { h.setSource h.nextSource { obj := obj } with nextSource := h.nextSource + 1 }
  have hsource : h'.sources h.nextSource = { obj := obj } := if_pos rfl
  refine ⟨h', rfl, ⟨rfl, fun _ _ hne => if_neg hne, fun _ _ => rfl, Nat.le_succ _, le_rfl⟩, rfl,
    by rw [hsource], Nat.lt_succ_self _, ?_, ?_⟩
  · rw [hsource]
    exact nofun
  · rw [hsource]
    exact nofun

theorem fromSource_recurs (hfits : inspect.Fits attrs) (limit : ℕ) :
    Recurs factory inspect attrs limit (fromSource factory inspect limit) := by
  induction limit with
  | zero => exact ⟨fun _ hbelow => hbelow.elim, fun _ _ h _ => ⟨h, rfl⟩⟩
  | succ limit ih =>
    refine ⟨fun obj hbelow h hattrs => ?_, fun obj hdeep h hattrs => ?_⟩
    · obtain ⟨h₁, hnew, hextends₁, hfills₁⟩ := newSource_fills h limit obj
      obtain ⟨h₂, hall, hextends₂, hfills₂⟩ := relateAll_ok ih _ (hfits obj)
        (fun rel hrel obj' hleads => hbelow obj' ⟨rel, hrel, hleads⟩) (hattrs ▸ hfills₁)
      refine ⟨h₂, ?_, hextends₁.trans hextends₂, hfills₂.obj, hfills₂.mirrors⟩
      rw [fromSource, bind_ok hnew, bind_ok hall]
      rfl
    · obtain ⟨h₁, hnew, -, hfills₁⟩ := newSource_fills h limit obj
      have hdeep' : ∃ obj', Refers factory inspect attrs obj obj' ∧
          ¬Depth.Below (Refers factory inspect attrs) limit obj' := by
        by_contra hnot
        exact hdeep fun obj' hrefers => by_contra fun hbelow => hnot ⟨obj', hrefers, hbelow⟩
      obtain ⟨obj', ⟨rel, hrel, hleads⟩, hnot⟩ := hdeep'
      obtain ⟨h₂, hfailed⟩ := relateAll_fails ih _ (hfits obj)
        ⟨rel, hrel, obj', hleads, hnot⟩ (hattrs ▸ hfills₁)
      refine ⟨h₂, ?_⟩
      rw [fromSource, bind_ok hnew, bind_error hfailed]

/-- With this limit `from_source` returns, then `build_root` returns the object, and both leave the
attributes of every object as they are. -/
def Restores (factory : EntitySourceFactory D C) (inspect : Inspection O C) (h : Heap O α)
    (root : O) (limit : ℕ) : Prop :=
  ∃ s h₁ h₂, fromSource factory inspect limit root h = .ok s h₁ ∧ h₁.attrs = h.attrs ∧
    buildRoot limit s h₁ = .ok root h₂ ∧ h₂.attrs = h.attrs

theorem restores_of_below {h : Heap O α} (hfits : inspect.Fits h.attrs) {root : O} {limit : ℕ}
    (hbelow : Depth.Below (Refers factory inspect h.attrs) limit root) :
    Restores factory inspect h root limit := by
  obtain ⟨h₁, hmade, hextends, hobj, hmirrors⟩ :=
    (fromSource_recurs hfits limit).makes root hbelow h rfl
  obtain ⟨h₂, hbuilt, halike⟩ := hmirrors.rebuilds h₁ (.refl h₁)
  rw [hobj] at hbuilt
  exact ⟨_, h₁, h₂, hmade, hextends.attrs, hbuilt, halike.attrs.trans hextends.attrs⟩

end Graph

/-- **In a finite graph of loaded objects `from_source`, and `build_root` on its result, return and
restore every attribute as soon as the limit is the number of objects that are reached, if no object
that is reached refers back to itself over others. If one does, `from_source` has no end, at any
limit.** -/
theorem fromSource_buildRoot (h : Heap O α) (root : O) (hfits : inspect.Fits h.attrs)
    (hfinite : {obj | ReflTransGen (Refers factory inspect h.attrs) root obj}.Finite) :
    ((∀ obj, ReflTransGen (Refers factory inspect h.attrs) root obj →
        ¬TransGen (Refers factory inspect h.attrs) obj obj) →
      ∀ limit ≥ {obj | ReflTransGen (Refers factory inspect h.attrs) root obj}.ncard,
        Restores factory inspect h root limit) ∧
    ∀ obj, ReflTransGen (Refers factory inspect h.attrs) root obj →
      TransGen (Refers factory inspect h.attrs) obj obj →
        ∀ limit, ∃ h', fromSource factory inspect limit root h = .error .recursionError h' := by
  refine ⟨fun hcycle limit hlimit => ?_, fun obj hreach hcycle limit => ?_⟩
  · exact restores_of_below hfits ((Depth.below_card hfinite hcycle).mono hlimit)
  · exact (fromSource_recurs hfits limit).fails root
      (fun hbelow => (hbelow.of_reflTransGen hreach).not_cycle hcycle) h rfl

/-- Users and blobs: a user's avatar is a blob, and users create and update blobs. -/
def blobInspection (loaded : List (ℕ × String)) : Inspection ℕ String where
  cls obj := if obj = 0 then "UserOrmModel" else "BlobObjectOrmModel"
  relationships cls :=
    if cls = "UserOrmModel" then [⟨"avatar", "BlobObjectOrmModel", false⟩]
    else [⟨"created_by", "UserOrmModel", false⟩, ⟨"updated_by", "UserOrmModel", false⟩]
  loaded obj key := decide ((obj, key) ∈ loaded)

def blobFactory : EntitySourceFactory String String :=
  ⟨[("UserAggregate", "UserOrmModel"), ("BlobEntity", "BlobObjectOrmModel")]⟩

/-- User 0 has the avatar 1 and created it. -/
def blobHeap : Heap ℕ ℕ where
  sources _ := { obj := 0 }
  lists _ := []
  attrs obj key :=
    if obj = 0 ∧ key = "avatar" then .obj 1
    else if obj = 1 ∧ key = "created_by" then .obj 0 else .null
  nextSource := 0
  nextList := 0

theorem blobHeap_fits (loaded : List (ℕ × String)) :
    (blobInspection loaded).Fits blobHeap.attrs := by
  intro obj rel hrel _
  have huselist : rel.uselist = false := by
    have hrel : rel ∈ ite _ _ _ := hrel
    split_ifs at hrel
    · rw [List.mem_singleton.mp hrel]
    · rcases List.mem_pair.mp hrel with rfl | rfl <;> rfl
  rw [huselist]
  show Value.Fits false (ite _ _ _)
  split_ifs
  · rfl
  · rfl
  · trivial

theorem refers_avatar {obj obj' : ℕ}
    (h : Refers blobFactory (blobInspection [(0, "avatar")]) blobHeap.attrs obj obj') :
    obj = 0 ∧ obj' = 1 := by
  obtain ⟨rel, -, ⟨hloaded, -⟩, hmem⟩ := h
  have hloaded := List.mem_singleton.mp (of_decide_eq_true hloaded)
  obtain ⟨rfl, hkey⟩ := Prod.mk.inj hloaded
  rw [hkey] at hmem
  exact ⟨rfl, List.mem_singleton.mp hmem⟩

/-- With the avatar loaded, and its author not. -/
theorem fromSource_buildRoot_avatar :
    Restores blobFactory (blobInspection [(0, "avatar")]) blobHeap 0 2 := by
  have hreach : {obj | ReflTransGen (Refers blobFactory (blobInspection [(0, "avatar")])
      blobHeap.attrs) 0 obj} ⊆ {0, 1} := by
    intro obj hobj
    rcases hobj.cases_tail with rfl | ⟨_, _, hlast⟩
    · exact Set.mem_insert 0 {1}
    · exact .inr (refers_avatar hlast).2
  have hfinite := (Set.toFinite ({0, 1} : Set ℕ)).subset hreach
  refine (fromSource_buildRoot _ _ blobHeap 0 (blobHeap_fits _) hfinite).1
    (fun obj _ hcycle => ?_) 2 ?_
  · obtain ⟨obj', hfirst, -⟩ := TransGen.head'_iff.mp hcycle
    obtain ⟨obj'', -, hlast⟩ := TransGen.tail'_iff.mp hcycle
    exact absurd ((refers_avatar hfirst).1.symm.trans (refers_avatar hlast).2) Nat.zero_ne_one
  · exact (Set.ncard_le_ncard hreach (Set.toFinite _)).trans (Set.ncard_pair Nat.zero_ne_one).le

/-- With the avatar and its author loaded, there is no end. -/
theorem not_fromSource_buildRoot :
    ¬∃ limit s h', fromSource blobFactory (blobInspection [(0, "avatar"), (1, "created_by")])
      limit 0 blobHeap = .ok s h' := by
  rintro ⟨limit, s, h', hreturns⟩
  have hthere : Refers blobFactory (blobInspection [(0, "avatar"), (1, "created_by")])
      blobHeap.attrs 0 1 :=
    ⟨_, List.mem_cons_self, ⟨rfl, rfl⟩, List.mem_cons_self⟩
  have hback : Refers blobFactory (blobInspection [(0, "avatar"), (1, "created_by")])
      blobHeap.attrs 1 0 :=
    ⟨_, List.mem_cons_self, ⟨rfl, rfl⟩, List.mem_cons_self⟩
  obtain ⟨_, hfailed⟩ := (fromSource_recurs (blobHeap_fits _) limit).fails 0
    (fun hbelow => hbelow.not_cycle (TransGen.tail (TransGen.single hthere) hback)) blobHeap rfl
  rw [hreturns] at hfailed
  cases hfailed

end ApiTemplate.Entities
