import OperationLibrary.Notice
import OperationLibrary.Schema.Flaw

/-!
Projections make something of what a schema says. Whatever is wrong with the schema, a projection
has a value, and laws about the value hold of every schema. Where something is wrong the projection
has a fault too, which says that the value is not to be used; notices end there.
-/

namespace OperationLibrary

/-- Why there is no shape, or no text for one. -/
inductive ShapeFault where
  /-- An explanation without words has to be written into a comment. -/
  | notText
  /-- A list or an object that explains something has to be compared with others. -/
  | notComparable
  /-- The schema has a flaw in a part that is asked for. -/
  | flawed (flaw : SchemaFlaw)
  deriving DecidableEq

/-- A value, the notices made on the way to it, and the first fault on this way. -/
structure Projection (α : Type) where
  value : α
  notices : List Notice
  fault : Option ShapeFault

namespace Projection

variable {α β : Type}

instance : Monad Projection where
  pure a := ⟨a, [], none⟩
  bind x f :=
    let next := f x.value
    ⟨next.value, if x.fault.isSome then x.notices else x.notices ++ next.notices,
      x.fault.or next.fault⟩

instance : MonadLift Logged Projection where
  monadLift x := ⟨x.value, x.notices, none⟩

/-- Goes on if there is no fault. -/
def check (fault : Option ShapeFault) : Projection Unit :=
  ⟨(), [], fault⟩

end Projection

/-- What projections come to: a value or a fault, and notices. -/
abbrev Settled (α : Type) := ExceptT ShapeFault Logged α

/-- The value of a projection without a fault. -/
def Projection.settle {α : Type} (x : Projection α) : Settled α :=
  ExceptT.mk ⟨match x.fault with
    | some fault => .error fault
    | none => .ok x.value, x.notices⟩

/-! ### Laws -/

namespace Projection

variable {α β : Type}

@[simp] theorem value_pure (a : α) : (pure a : Projection α).value = a := rfl

@[simp] theorem notices_pure (a : α) : (pure a : Projection α).notices = [] := rfl

@[simp] theorem fault_pure (a : α) : (pure a : Projection α).fault = none := rfl

@[simp] theorem value_bind (x : Projection α) (f : α → Projection β) :
    (x >>= f).value = (f x.value).value := rfl

@[simp] theorem notices_bind (x : Projection α) (f : α → Projection β) :
    (x >>= f).notices =
      if x.fault.isSome then x.notices else x.notices ++ (f x.value).notices := rfl

@[simp] theorem fault_bind (x : Projection α) (f : α → Projection β) :
    (x >>= f).fault = x.fault.or (f x.value).fault := rfl

@[ext] theorem ext {x y : Projection α} (hv : x.value = y.value) (hn : x.notices = y.notices)
    (hf : x.fault = y.fault) : x = y := by
  cases x
  cases y
  simp_all

instance : LawfulMonad Projection :=
  LawfulMonad.mk' Projection
    (fun x => ext rfl (by simp [Functor.map]) (by simp [Functor.map]))
    (fun _ _ => ext rfl (by simp) (by simp))
    (fun x f _ => ext rfl
      (by cases hx : x.fault <;> cases hf : (f x.value).fault <;> simp [hx, hf])
      (by cases hx : x.fault <;> simp [hx]))

@[simp] theorem value_map (f : α → β) (x : Projection α) : (f <$> x).value = f x.value := rfl

@[simp] theorem notices_map (f : α → β) (x : Projection α) : (f <$> x).notices = x.notices := by
  simp [Functor.map]

@[simp] theorem fault_map (f : α → β) (x : Projection α) : (f <$> x).fault = x.fault := by
  simp [Functor.map]

@[simp] theorem value_lift (x : Logged α) : (liftM x : Projection α).value = x.value := rfl

@[simp] theorem notices_lift (x : Logged α) : (liftM x : Projection α).notices = x.notices := rfl

@[simp] theorem fault_lift (x : Logged α) : (liftM x : Projection α).fault = none := rfl

@[simp] theorem value_check (fault : Option ShapeFault) : (check fault).value = () := rfl

@[simp] theorem fault_check (fault : Option ShapeFault) : (check fault).fault = fault := rfl

end Projection

end OperationLibrary
