import Mathlib.Data.Finset.Insert
import Mathlib.Data.List.Induction
import Mathlib.Logic.Function.Basic

/-!
# Entities that track their changes

`EntityProxy` writes its fields through to a source and notes in `_changed_fields` which of them
were replaced by an unequal value. A field that the source does not have counts as `None`, so
assigning `None` to it leaves it absent. The slots of the proxy itself take any value: who assigns
`_changed_fields` rewrites the notes.
-/

namespace ApiTemplate.Entities.Changes

/-! ## `sources.py`, the attributes of the ORM object -/

/-- `AttributeError` with its text. -/
structure AttributeError where
  text : String
  deriving DecidableEq

/-- What is used of values: `None`, and `!=`, by which an object may differ from itself. -/
structure Objects (V : Type) where
  none : V
  ne : V → V → Bool

/-- `SqlAlchemyEntitySource`, what `set`, `has` and `get` see of it. -/
structure Source (V : Type) where
  objType : String
  attrs : String → Option V

variable {V : Type}

def Source.set (source : Source V) (key : String) (value : V) : Source V :=
  { source with attrs := Function.update source.attrs key (some value) }

def Source.has (source : Source V) (key : String) : Bool := (source.attrs key).isSome

def Source.get (source : Source V) (key : String) : Except AttributeError V :=
  match source.attrs key with
  | some value => .ok value
  | none => .error ⟨"'" ++ source.objType ++ "' object has no attribute '" ++ key ++ "'"⟩

/-! ## `entity_proxy.py` -/

/-- `EntityProxy.__slots__` -/
def proxySlots : List String := ["_changed_fields", "_proxy_fields", "_source"]

/-- A class built on `EntityProxy`; `members` are the methods and properties of its body and of its
bases. -/
structure EntityClass where
  name : String
  slots : List String
  members : List String
  slots_proxy : ∀ key ∈ proxySlots, key ∈ slots

/-- The names that `_proxy_fields` may hold: what the class has under a proxied name would hide the
field. -/
def Fields (cls : EntityClass) : Type :=
  { names : Finset String // ∀ key ∈ names, key ∉ cls.slots ∧ key ∉ cls.members }

theorem Fields.not_proxySlot {cls : EntityClass} (fields : Fields cls) {key : String}
    (h : key ∈ fields.1) : key ∉ proxySlots :=
  fun hslot => (fields.2 key h).1 (cls.slots_proxy key hslot)

/-- An instance. `slots` are those that the class adds to the three of `EntityProxy`. -/
structure Entity (cls : EntityClass) (V : Type) where
  changedFields : Finset String
  proxyFields : Fields cls
  source : Source V
  slots : String → Option V

/-- An assignment to a name other than the three slots. -/
structure AttrAssignment (V : Type) where
  key : String
  value : V
  proper : key ∉ proxySlots

/-- `entity.key = value`. The slots of `EntityProxy` take what they are declared with. -/
inductive Assignment (cls : EntityClass) (V : Type)
  | changedFields (names : Finset String)
  | proxyFields (names : Fields cls)
  | source (source : Source V)
  | attr (a : AttrAssignment V)

variable {cls : EntityClass}

def noAttribute (cls : EntityClass) (key : String) : AttributeError :=
  ⟨cls.name ++ " has no attribute " ++ key⟩

/-- `self._source.get(key) if self._source.has(key) else None` -/
def Entity.old (objects : Objects V) (self : Entity cls V) (key : String) :
    Except AttributeError V :=
  if self.source.has key then self.source.get key else .ok objects.none

/-- `EntityProxy.__setattr__` -/
def setattr (objects : Objects V) :
    Assignment cls V → EStateM AttributeError (Entity cls V) Unit
  | .changedFields names => modify fun self => { self with changedFields := names }
  | .proxyFields names => modify fun self => { self with proxyFields := names }
  | .source source => modify fun self => { self with source := source }
  | .attr ⟨key, value, _⟩ => do
    let self ← get
    if key ∈ cls.slots then
      set { self with slots := Function.update self.slots key (some value) }
    else if key ∈ self.proxyFields.1 then
      match self.old objects key with
      | .error e => throw e
      | .ok old =>
        if objects.ne old value then
          modify fun self => { self with source := self.source.set key value }
          modify fun self => { self with changedFields := insert key self.changedFields }
    else throw (noAttribute cls key)

/-- `EntityProxy.__getattr__`, which is asked for the names that ordinary lookup does not find: not
for members of the class and not for slots that are set. -/
def Entity.getattr (self : Entity cls V) (key : String) : Except AttributeError V :=
  if key ∈ self.proxyFields.1 then self.source.get key
  else if key ∈ cls.slots then
    .error ⟨"'" ++ cls.name ++ "' object has no attribute '" ++ key ++ "'"⟩
  else .error (noAttribute cls key)

/-- `__init__` of a class whose proxied names are `fields`. -/
def Entity.init (fields : Fields cls) (source : Source V) : Entity cls V :=
  { changedFields := ∅, proxyFields := fields, source := source, slots := fun _ => none }

def Entity.clearChanges (self : Entity cls V) : Entity cls V := { self with changedFields := ∅ }

/-! ## `user_entity.py`, `user_aggregate.py` -/

def userFields : Finset String :=
  {"id", "email", "password", "phone", "first_name", "last_name", "address", "description",
    "avatar_id", "information", "email_confirmed", "is_active", "is_superuser", "last_login_time"}

def otpFields : Finset String :=
  {"otp", "content_id", "content_type", "kind", "expires_at", "used_at", "target_value", "verified"}

def userEntity : EntityClass where
  name := "UserEntity"
  slots := proxySlots
  members := ["source", "dict", "clear_changes", "full_name"]
  slots_proxy := fun _ h => h

def otpEntity : EntityClass where
  name := "OtpEntity"
  slots := proxySlots
  members := ["source", "dict", "clear_changes"]
  slots_proxy := fun _ h => h

def userAggregate : EntityClass where
  name := "UserAggregate"
  slots := proxySlots ++ ["_events"]
  members := ["source", "dict", "clear_changes", "full_name", "pull_events", "add_domain_event",
    "register", "create", "update", "change_email", "set_password", "confirm_email", "touch_login",
    "mark_registered"]
  slots_proxy := fun _ h => List.mem_append_left _ h

/-- `_proxy_fields` of users. -/
def userEntity.fields : Fields userEntity := ⟨userFields, by decide⟩

def otpEntity.fields : Fields otpEntity := ⟨otpFields, by decide⟩

def userAggregate.fields : Fields userAggregate := ⟨userFields, by decide⟩

/-! ## One assignment -/

variable (objects : Objects V)

/-- What the proxy takes a field's value to be: `None` for one that the source does not have. -/
def Entity.stored (self : Entity cls V) (key : String) : V :=
  (self.source.attrs key).getD objects.none

/-- The branch of `__setattr__` for a proxied name. -/
def Entity.store (self : Entity cls V) (key : String) (value : V) : Entity cls V :=
  if objects.ne (self.stored objects key) value then
    { self with
      source := self.source.set key value
      changedFields := insert key self.changedFields }
  else self

/-- The entity after an assignment, whether it raised or not. -/
def Entity.after (self : Entity cls V) (a : Assignment cls V) : Entity cls V :=
  match setattr objects a self with
  | .ok _ self' => self'
  | .error _ self' => self'

def Entity.run (self : Entity cls V) (assignments : List (Assignment cls V)) : Entity cls V :=
  assignments.foldl (Entity.after objects) self

/-- A run that leaves the slots of the proxy alone. -/
def Entity.assign (self : Entity cls V) (run : List (AttrAssignment V)) : Entity cls V :=
  self.run objects (run.map .attr)

theorem get_bind {β : Type} (f : Entity cls V → EStateM AttributeError (Entity cls V) β)
    (self : Entity cls V) : (get >>= f) self = f self self := rfl

theorem old_eq (self : Entity cls V) (key : String) :
    self.old objects key = .ok (self.stored objects key) := by
  cases h : self.source.attrs key <;> simp [Entity.old, Source.has, Source.get, Entity.stored, h]

section

variable {objects} {self : Entity cls V} {a : AttrAssignment V}

theorem setattr_field (hfield : a.key ∈ self.proxyFields.1) :
    setattr objects (.attr a) self = .ok () (self.store objects a.key a.value) := by
  obtain ⟨key, value, proper⟩ := a
  have hslot : key ∉ cls.slots := (self.proxyFields.2 key hfield).1
  have hfield' : key ∈ self.proxyFields.1 := hfield
  simp only [setattr, get_bind, if_neg hslot, if_pos hfield', old_eq]
  unfold Entity.store
  cases objects.ne (self.stored objects key) value
  case false => rfl
  case true => rfl

theorem setattr_slot (hslot : a.key ∈ cls.slots) :
    setattr objects (.attr a) self =
      .ok () { self with slots := Function.update self.slots a.key (some a.value) } := by
  obtain ⟨key, value, proper⟩ := a
  have hslot' : key ∈ cls.slots := hslot
  simp only [setattr, get_bind, if_pos hslot']
  rfl

theorem setattr_other (hslot : a.key ∉ cls.slots) (hfield : a.key ∉ self.proxyFields.1) :
    setattr objects (.attr a) self = .error (noAttribute cls a.key) self := by
  obtain ⟨key, value, proper⟩ := a
  have hslot' : key ∉ cls.slots := hslot
  have hfield' : key ∉ self.proxyFields.1 := hfield
  simp only [setattr, get_bind, if_neg hslot', if_neg hfield']
  rfl

/-- What an assignment can do: fill a slot, store a field, or nothing. -/
theorem after_cases (objects : Objects V) (self : Entity cls V) (a : AttrAssignment V) :
    (a.key ∈ cls.slots ∧ self.after objects (.attr a) =
        { self with slots := Function.update self.slots a.key (some a.value) }) ∨
    (a.key ∈ self.proxyFields.1 ∧
        self.after objects (.attr a) = self.store objects a.key a.value) ∨
    (a.key ∉ cls.slots ∧ a.key ∉ self.proxyFields.1 ∧ self.after objects (.attr a) = self) := by
  by_cases hslot : a.key ∈ cls.slots
  · exact .inl ⟨hslot, by rw [Entity.after, setattr_slot hslot]⟩
  · by_cases hfield : a.key ∈ self.proxyFields.1
    · exact .inr (.inl ⟨hfield, by rw [Entity.after, setattr_field hfield]⟩)
    · exact .inr (.inr ⟨hslot, hfield, by rw [Entity.after, setattr_other hslot hfield]⟩)

end

theorem store_of_ne {self : Entity cls V} {key : String} {value : V}
    (h : objects.ne (self.stored objects key) value = true) :
    self.store objects key value = { self with
      source := self.source.set key value
      changedFields := insert key self.changedFields } := if_pos h

theorem store_of_eq {self : Entity cls V} {key : String} {value : V}
    (h : objects.ne (self.stored objects key) value = false) :
    self.store objects key value = self := by
  rw [Entity.store, h]
  rfl

theorem attrs_set_self (source : Source V) (key : String) (value : V) :
    (source.set key value).attrs key = some value := Function.update_self ..

theorem attrs_set_of_ne {source : Source V} {key key' : String} (h : key' ≠ key) (value : V) :
    (source.set key value).attrs key' = source.attrs key' := Function.update_of_ne h ..

/-! ## Frames -/

/-- What `a` leaves of the entity: the other fields, their notes and the other slots. -/
structure Frame (a : AttrAssignment V) (entity entity' : Entity cls V) : Prop where
  proxyFields : entity'.proxyFields = entity.proxyFields
  attrs : ∀ key ≠ a.key, entity'.source.attrs key = entity.source.attrs key
  changed : ∀ key ≠ a.key, (key ∈ entity'.changedFields ↔ key ∈ entity.changedFields)
  slots : ∀ key ≠ a.key, entity'.slots key = entity.slots key

theorem after_frame (self : Entity cls V) (a : AttrAssignment V) :
    Frame a self (self.after objects (.attr a)) := by
  obtain ⟨-, h⟩ | ⟨-, h⟩ | ⟨-, -, h⟩ := after_cases objects self a
  · rw [h]
    exact ⟨rfl, fun _ _ => rfl, fun _ _ => .rfl, fun key hkey => Function.update_of_ne hkey ..⟩
  · rw [h]
    cases hne : objects.ne (self.stored objects a.key) a.value with
    | false =>
      rw [store_of_eq objects hne]
      exact ⟨rfl, fun _ _ => rfl, fun _ _ => .rfl, fun _ _ => rfl⟩
    | true =>
      rw [store_of_ne objects hne]
      refine ⟨rfl, fun key hkey => attrs_set_of_ne hkey _, fun key hkey => ?_, fun _ _ => rfl⟩
      exact Finset.mem_insert.trans (or_iff_right hkey)
  · rw [h]
    exact ⟨rfl, fun _ _ => rfl, fun _ _ => .rfl, fun _ _ => rfl⟩

theorem proxyFields_assign (self : Entity cls V) (run : List (AttrAssignment V)) :
    (self.assign objects run).proxyFields = self.proxyFields := by
  induction run generalizing self with
  | nil => rfl
  | cons a run ih => exact (ih _).trans (after_frame objects self a).proxyFields

theorem assign_append (self : Entity cls V) (run : List (AttrAssignment V))
    (a : AttrAssignment V) :
    self.assign objects (run ++ [a]) = (self.assign objects run).after objects (.attr a) := by
  simp [Entity.assign, Entity.run]

/-! ## The notes -/

/-- Some assignment of the run replaced the stored value of `key` by an unequal one. -/
def Replaced (entity : Entity cls V) (run : List (AttrAssignment V)) (key : String) : Prop :=
  ∃ pre a post, run = pre ++ a :: post ∧ a.key = key ∧ key ∈ entity.proxyFields.1 ∧
    objects.ne ((entity.assign objects pre).stored objects key) a.value = true

theorem replaced_append (entity : Entity cls V) (run : List (AttrAssignment V))
    (a : AttrAssignment V) (key : String) :
    Replaced objects entity (run ++ [a]) key ↔
      Replaced objects entity run key ∨ (a.key = key ∧ key ∈ entity.proxyFields.1 ∧
        objects.ne ((entity.assign objects run).stored objects key) a.value = true) := by
  constructor
  · rintro ⟨pre, b, post, hrun, hkey, hfield, hne⟩
    rcases List.eq_nil_or_concat post with rfl | ⟨post, c, rfl⟩
    · obtain ⟨rfl, hb⟩ := List.append_inj' hrun rfl
      obtain rfl : a = b := List.singleton_inj.mp hb
      exact .inr ⟨hkey, hfield, hne⟩
    · rw [List.concat_eq_append, ← List.cons_append, ← List.append_assoc] at hrun
      obtain ⟨rfl, -⟩ := List.append_inj' hrun rfl
      exact .inl ⟨pre, b, post, rfl, hkey, hfield, hne⟩
  · rintro (⟨pre, b, post, rfl, hkey, hfield, hne⟩ | ⟨hkey, hfield, hne⟩)
    · exact ⟨pre, b, post ++ [a], by simp, hkey, hfield, hne⟩
    · exact ⟨run, a, [], rfl, hkey, hfield, hne⟩

theorem mem_changedFields_after (self : Entity cls V) (a : AttrAssignment V) (key : String) :
    key ∈ (self.after objects (.attr a)).changedFields ↔
      key ∈ self.changedFields ∨ (a.key = key ∧ key ∈ self.proxyFields.1 ∧
        objects.ne (self.stored objects key) a.value = true) := by
  obtain ⟨hslot, h⟩ | ⟨hfield, h⟩ | ⟨-, hfield, h⟩ := after_cases objects self a
  · rw [h]
    refine (or_iff_left ?_).symm
    rintro ⟨rfl, hfield, -⟩
    exact (self.proxyFields.2 _ hfield).1 hslot
  · rw [h]
    cases hne : objects.ne (self.stored objects a.key) a.value with
    | false =>
      rw [store_of_eq objects hne]
      refine (or_iff_left ?_).symm
      rintro ⟨rfl, -, hne'⟩
      simp [hne] at hne'
    | true =>
      rw [store_of_ne objects hne, Finset.mem_insert, or_comm]
      refine or_congr .rfl ⟨?_, fun h => h.1.symm⟩
      rintro rfl
      exact ⟨rfl, hfield, hne⟩
  · rw [h]
    refine (or_iff_left ?_).symm
    rintro ⟨rfl, hfield', -⟩
    exact hfield hfield'

theorem mem_changedFields_assign (entity : Entity cls V) (run : List (AttrAssignment V))
    (key : String) :
    key ∈ (entity.assign objects run).changedFields ↔
      key ∈ entity.changedFields ∨ Replaced objects entity run key := by
  induction run using List.reverseRecOn with
  | nil => simp [Entity.assign, Entity.run, Replaced]
  | append_singleton run a ih =>
    rw [assign_append, mem_changedFields_after, ih, replaced_append, or_assoc, proxyFields_assign]

theorem attrs_after_of_not_mem {self : Entity cls V} {a : AttrAssignment V} {key : String}
    (h : key ∉ (self.after objects (.attr a)).changedFields) :
    (self.after objects (.attr a)).source.attrs key = self.source.attrs key := by
  by_cases hkey : key = a.key
  · subst hkey
    obtain ⟨-, h'⟩ | ⟨-, h'⟩ | ⟨-, -, h'⟩ := after_cases objects self a
    · rw [h']
    · rw [h'] at h ⊢
      cases hne : objects.ne (self.stored objects a.key) a.value with
      | false => rw [store_of_eq objects hne]
      | true =>
        rw [store_of_ne objects hne] at h
        exact absurd (Finset.mem_insert_self ..) h
    · rw [h']
  · exact (after_frame objects self a).attrs key hkey

theorem attrs_assign_of_not_mem {entity : Entity cls V} {run : List (AttrAssignment V)}
    {key : String} (h : key ∉ (entity.assign objects run).changedFields) :
    (entity.assign objects run).source.attrs key = entity.source.attrs key := by
  induction run using List.reverseRecOn with
  | nil => rfl
  | append_singleton run a ih =>
    rw [assign_append] at h ⊢
    rw [attrs_after_of_not_mem objects h]
    rw [mem_changedFields_after] at h
    exact ih fun hmem => h (.inl hmem)

/-! ## Reading back -/

/-- `value` read back: the same object, or one that `!=` does not tell from it. -/
def Objects.Equal (v value : V) : Prop := v = value ∨ objects.ne v value = false

/-- The last value that the run assigns to `key`. -/
def lastAssigned (run : List (AttrAssignment V)) (key : String) : Option V :=
  ((run.filter (·.key = key)).getLast?).map (·.value)

/-- The source has the field, or some value that is assigned to it is not `None`. -/
def Present (entity : Entity cls V) (run : List (AttrAssignment V)) (key : String) : Prop :=
  entity.source.has key = true ∨ ∃ a ∈ run, a.key = key ∧ objects.ne objects.none a.value = true

theorem lastAssigned_append_self (run : List (AttrAssignment V)) (a : AttrAssignment V) :
    lastAssigned (run ++ [a]) a.key = some a.value := by
  simp [lastAssigned]

theorem lastAssigned_append_of_ne {run : List (AttrAssignment V)} {a : AttrAssignment V}
    {key : String} (h : a.key ≠ key) : lastAssigned (run ++ [a]) key = lastAssigned run key := by
  simp [lastAssigned, h]

theorem after_field {self : Entity cls V} {a : AttrAssignment V}
    (hfield : a.key ∈ self.proxyFields.1) :
    self.after objects (.attr a) = self.store objects a.key a.value := by
  rw [Entity.after, setattr_field hfield]

theorem has_after {self : Entity cls V} {a : AttrAssignment V}
    (hfield : a.key ∈ self.proxyFields.1) :
    (self.after objects (.attr a)).source.has a.key = true ↔
      self.source.has a.key = true ∨ objects.ne objects.none a.value = true := by
  rw [after_field objects hfield]
  cases hne : objects.ne (self.stored objects a.key) a.value with
  | true =>
    rw [store_of_ne objects hne]
    have hhas : (self.source.set a.key a.value).has a.key = true := by
      simp [Source.has, attrs_set_self]
    refine iff_of_true hhas ?_
    cases hattr : self.source.attrs a.key with
    | some old => exact .inl (by simp [Source.has, hattr])
    | none => exact .inr (by simpa [Entity.stored, hattr] using hne)
  | false =>
    rw [store_of_eq objects hne]
    refine (or_iff_left_of_imp fun h => ?_).symm
    cases hattr : self.source.attrs a.key with
    | some old => simp [Source.has, hattr]
    | none => simp [Entity.stored, hattr, h] at hne

theorem has_assign {entity : Entity cls V} {key : String} (hfield : key ∈ entity.proxyFields.1)
    (run : List (AttrAssignment V)) :
    (entity.assign objects run).source.has key = true ↔ Present objects entity run key := by
  induction run using List.reverseRecOn with
  | nil => simp [Entity.assign, Entity.run, Present]
  | append_singleton run a ih =>
    rw [assign_append]
    by_cases hkey : key = a.key
    · subst hkey
      rw [has_after objects (by rwa [proxyFields_assign]), ih]
      simp only [Present, List.mem_append, List.mem_singleton, or_assoc]
      refine or_congr .rfl ⟨?_, ?_⟩
      · rintro (⟨b, hb, h⟩ | h)
        · exact ⟨b, .inl hb, h⟩
        · exact ⟨a, .inr rfl, rfl, h⟩
      · rintro ⟨b, hb | rfl, h⟩
        · exact .inl ⟨b, hb, h⟩
        · exact .inr h.2
    · rw [Source.has, (after_frame objects _ a).attrs key hkey, ← Source.has, ih]
      simp only [Present, List.mem_append, List.mem_singleton]
      refine or_congr .rfl ⟨fun ⟨b, hb, h⟩ => ⟨b, .inl hb, h⟩, ?_⟩
      rintro ⟨b, hb | rfl, h⟩
      · exact ⟨b, hb, h⟩
      · exact absurd h.1.symm hkey

/-- What the source has of a field that was assigned is the last value, as far as `!=` tells. -/
theorem attrs_assign {entity : Entity cls V} {run : List (AttrAssignment V)} {key : String}
    {v value : V} (hfield : key ∈ entity.proxyFields.1)
    (hlast : lastAssigned run key = some value)
    (hv : (entity.assign objects run).source.attrs key = some v) : objects.Equal v value := by
  induction run using List.reverseRecOn with
  | nil => simp [lastAssigned] at hlast
  | append_singleton run a ih =>
    rw [assign_append] at hv
    by_cases hkey : a.key = key
    · subst hkey
      obtain rfl : a.value = value :=
        Option.some_inj.mp ((lastAssigned_append_self run a).symm.trans hlast)
      rw [after_field objects (by rwa [proxyFields_assign])] at hv
      cases hne : objects.ne ((entity.assign objects run).stored objects a.key) a.value with
      | true =>
        rw [store_of_ne objects hne] at hv
        exact .inl (Option.some_inj.mp (hv.symm.trans (attrs_set_self ..)))
      | false =>
        rw [store_of_eq objects hne] at hv
        right
        simpa [Entity.stored, hv] using hne
    · rw [(after_frame objects _ a).attrs key (Ne.symm hkey)] at hv
      rw [lastAssigned_append_of_ne hkey] at hlast
      exact ih hlast hv

/-! ## Runs of assignments -/

/-- The entity tracks the fields that `run` assigns. -/
structure Tracks (entity : Entity cls V) (run : List (AttrAssignment V)) : Prop where
  reads : ∀ key ∈ entity.proxyFields.1, Present objects entity run key →
    ∀ value, lastAssigned run key = some value →
      ∃ v, (entity.assign objects run).getattr key = .ok v ∧ objects.Equal v value
  absent : ∀ key ∈ entity.proxyFields.1, ¬Present objects entity run key →
    ∃ e, (entity.assign objects run).getattr key = .error e
  changed : ∀ key, key ∈ (entity.assign objects run).changedFields ↔
    Replaced objects entity run key
  unchanged : ∀ key ∉ (entity.assign objects run).changedFields,
    (entity.assign objects run).source.attrs key = entity.source.attrs key
  refused : ∀ a : AttrAssignment V, a.key ∉ cls.slots → a.key ∉ entity.proxyFields.1 →
    setattr objects (.attr a) (entity.assign objects run) =
      .error (noAttribute cls a.key) (entity.assign objects run)
  frame : ∀ a : AttrAssignment V, Frame a (entity.assign objects run)
    ((entity.assign objects run).after objects (.attr a))

/-- After `clear_changes` every run of assignments to names other than the slots of the proxy is
tracked. -/
theorem clearChanges_tracks (entity : Entity cls V) (run : List (AttrAssignment V)) :
    Tracks objects entity.clearChanges run where
  reads := by
    intro key hfield hpresent value hlast
    have hhas := (has_assign objects hfield run).mpr hpresent
    obtain ⟨v, hv⟩ := Option.isSome_iff_exists.mp hhas
    refine ⟨v, ?_, attrs_assign objects hfield hlast hv⟩
    rw [Entity.getattr, proxyFields_assign, if_pos hfield, Source.get, hv]
  absent := by
    intro key hfield habsent
    rw [← has_assign objects hfield, Source.has, Option.not_isSome_iff_eq_none] at habsent
    rw [Entity.getattr, proxyFields_assign, if_pos hfield, Source.get, habsent]
    exact ⟨_, rfl⟩
  changed key := by
    rw [mem_changedFields_assign]
    exact or_iff_right (Finset.notMem_empty key)
  unchanged _ h := attrs_assign_of_not_mem objects h
  refused a hslot hfield := setattr_other hslot (by rwa [proxyFields_assign])
  frame a := after_frame objects _ a

/-- A user whose object has an e-mail address and nothing else. -/
def sparseUser : Entity userEntity (Option ℕ) :=
  .init userEntity.fields ⟨"Row", fun key => if key = "email" then some (some 1) else none⟩

def optionObjects : Objects (Option ℕ) := ⟨none, fun v w => decide (v ≠ w)⟩

def informationNone : AttrAssignment (Option ℕ) :=
  ⟨"information", none, userEntity.fields.not_proxySlot (by decide)⟩

def emailTwo : AttrAssignment (Option ℕ) :=
  ⟨"email", some 2, userEntity.fields.not_proxySlot (by decide)⟩

/-- `None` assigned to an absent field cannot be read back; and after a new set is assigned to
`_changed_fields` a replaced field is not noted. -/
theorem not_tracked :
    (lastAssigned [informationNone] "information" = some none ∧
      (sparseUser.clearChanges.run optionObjects [.attr informationNone]).getattr "information" =
        .error ⟨"'Row' object has no attribute 'information'"⟩) ∧
    (optionObjects.ne (sparseUser.clearChanges.stored optionObjects "email") (some 2) = true ∧
      "email" ∉ (sparseUser.clearChanges.run optionObjects
        [.attr emailTwo, .changedFields ∅]).changedFields) := by
  refine ⟨⟨rfl, rfl⟩, rfl, ?_⟩
  decide

end ApiTemplate.Entities.Changes
