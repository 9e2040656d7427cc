import ApiTemplate.Collections.Dict

/-!
# Sources of entities

`SqlAlchemyEntitySource` over a heap: sources, the Python lists that they refer to, and the
attributes of ORM objects. An entity is told by its source. Assigning a relationship puts the given
objects there; `limit` bounds the depth of recursion, as the interpreter does.
-/

namespace ApiTemplate.Entities

/-- `EntityProxy`, by the number of its `source`. -/
structure EntityProxy where
  source : ℕ
  deriving DecidableEq

/-- The value of an attribute: for a relationship an object, a list of objects or `None`. -/
inductive Value (O α : Type)
  | null
  | obj (o : O)
  | list (os : List O)
  | other (a : α)
  deriving DecidableEq

/-- `SqlAlchemyEntitySource`; a collection is told by the number of its list. -/
structure EntitySource (O : Type) where
  obj : O
  relatedEntities : List (String × Option EntityProxy) := []
  relatedEntitiesCollections : List (String × ℕ) := []

/-- `assigned` counts the assignments of an attribute: each puts a new list object there. -/
structure Heap (O α : Type) where
  sources : ℕ → EntitySource O
  lists : ℕ → List EntityProxy
  attrs : O → String → Value O α
  assigned : O → String → ℕ := fun _ _ => 0
  nextSource : ℕ
  nextList : ℕ

inductive PyError
  | attributeError
  | recursionError
  | typeError
  | noInspectionAvailable
  deriving DecidableEq

/-- Code that works on the heap; what it raises leaves the heap as it is then. -/
abbrev Py (O α β : Type) : Type := EStateM PyError (Heap O α) β

variable {O α β γ : Type} [DecidableEq O]

/-! ## The heap -/

/-- `setattr(o, key, value)` -/
def Heap.setattr (h : Heap O α) (o : O) (key : String) (value : Value O α) : Heap O α :=
  { h with
    attrs := fun o' key' => if o' = o ∧ key' = key then value else h.attrs o' key'
    assigned := fun o' key' =>
      if o' = o ∧ key' = key then h.assigned o' key' + 1 else h.assigned o' key' }

/-- `getattr(o, key).append(child)` for the list that was there after `assigned` assignments. -/
def Heap.appendChild (h : Heap O α) (o : O) (key : String) (assigned : ℕ) (os : List O)
    (child : O) : Heap O α :=
  if h.assigned o key = assigned then
    { h with
      attrs := fun o' key' =>
        if o' = o ∧ key' = key then .list (os ++ [child]) else h.attrs o' key' }
  else h

def Heap.setSource (h : Heap O α) (s : ℕ) (src : EntitySource O) : Heap O α :=
  { h with sources := fun s' => if s' = s then src else h.sources s' }

def Heap.setList (h : Heap O α) (l : ℕ) (entities : List EntityProxy) : Heap O α :=
  { h with lists := fun l' => if l' = l then entities else h.lists l' }

/-- `entity.source.source` -/
def Heap.root (h : Heap O α) (entity : EntityProxy) : O := (h.sources entity.source).obj

/-- `self._related_entities[key] = entity` -/
def Heap.trackEntity (h : Heap O α) (s : ℕ) (key : String) (entity : Option EntityProxy) :
    Heap O α :=
  h.setSource s { h.sources s with
    relatedEntities := Dict.setItem (h.sources s).relatedEntities key entity }

/-- `self._related_entities_collections[key] = entities` -/
def Heap.trackList (h : Heap O α) (s : ℕ) (key : String) (l : ℕ) : Heap O α :=
  h.setSource s { h.sources s with
    relatedEntitiesCollections := Dict.setItem (h.sources s).relatedEntitiesCollections key l }

/-- The same for a new list. -/
def Heap.trackNew (h : Heap O α) (s : ℕ) (key : String) (entities : List EntityProxy) :
    Heap O α :=
  { (h.setList h.nextList entities).trackList s key h.nextList with nextList := h.nextList + 1 }

/-! ## `sources.py` -/

/-- `[build(e.source) for e in entities]` -/
def buildRoots (build : ℕ → Py O α O) : List EntityProxy → Py O α (List O)
  | [] => pure []
  | entity :: entities => do
    let root ← build entity.source
    let roots ← buildRoots build entities
    return root :: roots

/-- The loop of `build_root` over `_related_entities`. -/
def buildRelated (build : ℕ → Py O α O) (o : O) : List (String × Option EntityProxy) → Py O α Unit
  | [] => pure ()
  | (key, none) :: items => do
    modify fun h => h.setattr o key .null
    buildRelated build o items
  | (key, some entity) :: items => do
    let root ← build entity.source
    modify fun h => h.setattr o key (.obj root)
    buildRelated build o items

/-- The loop of `build_root` over `_related_entities_collections`. -/
def buildCollections (build : ℕ → Py O α O) (o : O) : List (String × ℕ) → Py O α Unit
  | [] => pure ()
  | (key, l) :: items => do
    let roots ← buildRoots build ((← get).lists l)
    modify fun h => h.setattr o key (.list roots)
    buildCollections build o items

def buildRoot : ℕ → ℕ → Py O α O
  | 0, _ => throw .recursionError
  | limit + 1, s => do
    let self := (← get).sources s
    buildRelated (buildRoot limit) self.obj self.relatedEntities
    buildCollections (buildRoot limit) self.obj self.relatedEntitiesCollections
    return self.obj

variable (limit s : ℕ)

def setRelatedEntity (key : String) (entity : Option EntityProxy) : Py O α Unit := do
  modify fun h => h.trackEntity s key entity
  match entity with
  -- `None.source`
  | none => throw .attributeError
  | some entity => modify fun h => h.setattr (h.sources s).obj key (.obj (h.root entity))

/-- `entities` is the number of the list that is given. -/
def setRelatedEntities (key : String) (entities : ℕ) : Py O α Unit := do
  modify fun h => h.trackList s key entities
  let roots ← buildRoots (buildRoot limit) ((← get).lists entities)
  modify fun h => h.setattr (h.sources s).obj key (.list roots)

def appendRelatedEntity (key : String) (entity : EntityProxy) : Py O α Unit := do
  match Dict.get? ((← get).sources s).relatedEntitiesCollections key with
  | none =>
    modify fun h => h.trackNew s key [entity]
    let root ← buildRoot limit entity.source
    modify fun h => h.setattr (h.sources s).obj key (.list [root])
  | some l =>
    modify fun h => h.setList l (h.lists l ++ [entity])
    let h ← get
    match h.attrs (h.sources s).obj key with
    | .list os =>
      let root ← buildRoot limit entity.source
      modify fun h' =>
        h'.appendChild (h.sources s).obj key (h.assigned (h.sources s).obj key) os root
    -- what else is there has no `append`
    | _ => throw .attributeError

variable [DecidableEq α]

def removeEntityFromCollection (key : String) (entityId : Value O α) : Py O α Unit := do
  let h ← get
  match Dict.get? (h.sources s).relatedEntitiesCollections key with
  | none => pure ()
  | some l =>
    let newCol := (h.lists l).filter fun entity => h.attrs (h.root entity) "id" ≠ entityId
    modify fun h => h.trackNew s key newCol
    let roots ← buildRoots (buildRoot limit) newCol
    modify fun h => h.setattr (h.sources s).obj key (.list roots)

end ApiTemplate.Entities
