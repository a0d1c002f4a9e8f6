/-!
# Arenas

Objects with an identity are kept in arenas and named by handles. Two objects are the same exactly
when their handles are equal, however much their contents agree.

* `ObjectKind`, `Handle`: what a handle names, and the handle.
* `Arena`: the objects of one kind, in the order of their creation.
* `Arena.get?_alloc`, `Arena.get?_modify`, `Arena.get?_release`: what each operation does to
  look-up.
-/

namespace ClrImage

/-- The kinds of object that have an identity. -/
inductive ObjectKind
  | type | generic | field | param | method | property | event
deriving DecidableEq, Repr

/-- The name of an object of kind `k`. -/
structure Handle (k : ObjectKind) where
  index : Nat
deriving DecidableEq, Hashable, Repr

abbrev TypeHandle := Handle .type
abbrev GenericHandle := Handle .generic
abbrev FieldHandle := Handle .field
abbrev ParamHandle := Handle .param
abbrev MethodHandle := Handle .method
abbrev PropertyHandle := Handle .property
abbrev EventHandle := Handle .event

/-- The objects of one kind. A slot is empty once its object has been released; it is not used
again. -/
structure Arena (k : ObjectKind) (α : Type) where
  slots : Array (Option α) := #[]
deriving Repr

namespace Arena

variable {k : ObjectKind} {α : Type}

instance : Inhabited (Arena k α) := ⟨{}⟩

/-- The number of objects ever created. -/
def size (a : Arena k α) : Nat := a.slots.size

/-- The handle that the next object will get. -/
def next (a : Arena k α) : Handle k := ⟨a.slots.size⟩

/-- The object named by a handle, unless it has been released. -/
def get? (a : Arena k α) (h : Handle k) : Option α := (a.slots[h.index]?).join

/-- Adds an object; its handle is `a.next`. -/
def alloc (a : Arena k α) (object : α) : Arena k α := ⟨a.slots.push (some object)⟩

/-- Changes one object. -/
def modify (a : Arena k α) (h : Handle k) (f : α → α) : Arena k α :=
  ⟨a.slots.modify h.index (Option.map f)⟩

/-- Takes one object away. -/
def release (a : Arena k α) (h : Handle k) : Arena k α :=
  ⟨a.slots.modify h.index fun _ => none⟩

/-- The handles of all objects that have not been released. -/
def handles (a : Arena k α) : List (Handle k) :=
  ((List.range a.size).map Handle.mk).filter fun h => (a.get? h).isSome

/-! ## Look-up -/

@[simp] theorem get?_empty (h : Handle k) : ({} : Arena k α).get? h = none := by
  simp [get?]

theorem get?_alloc (a : Arena k α) (object : α) (h : Handle k) :
    (a.alloc object).get? h = if h = a.next then some object else a.get? h := by
  obtain ⟨i⟩ := h
  simp only [get?, alloc, next, Handle.mk.injEq, Array.getElem?_push]
  split <;> simp

theorem get?_modify (a : Arena k α) (h : Handle k) (f : α → α) (g : Handle k) :
    (a.modify h f).get? g = if g = h then (a.get? g).map f else a.get? g := by
  obtain ⟨i⟩ := g
  obtain ⟨j⟩ := h
  simp only [get?, modify, Array.getElem?_modify, Handle.mk.injEq]
  by_cases hij : j = i
  · subst hij
    cases a.slots[j]? <;> simp
  · simp [hij, Ne.symm hij]

theorem get?_release (a : Arena k α) (h g : Handle k) :
    (a.release h).get? g = if g = h then none else a.get? g := by
  obtain ⟨i⟩ := g
  obtain ⟨j⟩ := h
  simp only [get?, release, Array.getElem?_modify, Handle.mk.injEq]
  by_cases hij : j = i
  · subst hij
    cases a.slots[j]? <;> simp
  · simp [hij, Ne.symm hij]

@[simp] theorem size_alloc (a : Arena k α) (object : α) : (a.alloc object).size = a.size + 1 := by
  simp [size, alloc]

@[simp] theorem size_modify (a : Arena k α) (h : Handle k) (f : α → α) :
    (a.modify h f).size = a.size := by
  simp [size, modify]

end Arena

end ClrImage
