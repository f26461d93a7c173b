/-!
First-in first-out sequences, cheap at both ends. A sequence is its elements in order and nothing
else: how they are stored does not show, so equal elements make equal sequences.
-/
namespace LinkLayer

/-- A list in two parts. New elements go in front of the second part, which is turned over when the
first one runs out. -/
structure Halves (α : Type) where
  /-- The oldest elements, oldest first. -/
  front : List α := []
  /-- All others, newest first. -/
  back : List α := []

namespace Halves

variable {α : Type}

def toList (halves : Halves α) : List α := halves.front ++ halves.back.reverse

/-- Halves with the same elements are interchangeable. -/
def sameElements (α : Type) : Setoid (Halves α) where
  r a b := a.toList = b.toList
  iseqv := ⟨fun _ => rfl, Eq.symm, Eq.trans⟩

def push (halves : Halves α) (a : α) : Halves α := { halves with back := a :: halves.back }

def append (halves : Halves α) (as : List α) : Halves α :=
  { halves with back := as.reverse ++ halves.back }

def length (halves : Halves α) : Nat := halves.front.length + halves.back.length

def head? (halves : Halves α) : Option α :=
  match halves.front with
  | a :: _ => some a
  | [] => halves.back.getLast?

def tail (halves : Halves α) : Halves α :=
  match halves.front with
  | _ :: front => { halves with front }
  | [] => { front := halves.back.reverse.tail }

def takeWhile (p : α → Bool) (halves : Halves α) : List α :=
  match halves.front.dropWhile p with
  | [] => halves.front ++ halves.back.reverse.takeWhile p
  | _ :: _ => halves.front.takeWhile p

def dropWhile (p : α → Bool) (halves : Halves α) : Halves α :=
  match halves.front.dropWhile p with
  | [] => { front := halves.back.reverse.dropWhile p }
  | a :: front => { halves with front := a :: front }

variable {halves : Halves α} {p : α → Bool}

theorem toList_push (a : α) : (halves.push a).toList = halves.toList ++ [a] := by
  simp [toList, push]

theorem toList_append (as : List α) : (halves.append as).toList = halves.toList ++ as := by
  simp [toList, append]

theorem length_toList : halves.toList.length = halves.length := by
  simp [toList, length]

theorem head?_toList : halves.toList.head? = halves.head? := by
  cases h : halves.front <;> simp [toList, head?, h]

theorem toList_tail : halves.tail.toList = halves.toList.tail := by
  cases h : halves.front <;> simp [toList, tail, h]

theorem takeWhile_toList : halves.toList.takeWhile p = halves.takeWhile p := by
  have hf := List.takeWhile_append_dropWhile (p := p) (l := halves.front)
  unfold toList takeWhile
  rw [List.takeWhile_append]
  cases h : halves.front.dropWhile p with
  | nil =>
    rw [h, List.append_nil] at hf
    simp [hf]
  | cons a front =>
    have hl := congrArg List.length hf
    rw [h] at hl
    simp at hl ⊢
    omega

theorem toList_dropWhile : (halves.dropWhile p).toList = halves.toList.dropWhile p := by
  unfold toList dropWhile
  rw [List.dropWhile_append]
  cases h : halves.front.dropWhile p <;> simp

end Halves

/-- A first-in first-out sequence. -/
def Fifo (α : Type) : Type := Quotient (Halves.sameElements α)

namespace Fifo

variable {α : Type}

/-- The elements, oldest first. -/
def toList (fifo : Fifo α) : List α := Quotient.lift Halves.toList (fun _ _ h => h) fifo

def ofHalves (halves : Halves α) : Fifo α := Quotient.mk _ halves

/-- Changes the halves in a way that does to the elements what `g` does, whatever the halves are. -/
def change (f : Halves α → Halves α) (g : List α → List α)
    (h : ∀ x, (f x).toList = g x.toList) (fifo : Fifo α) : Fifo α :=
  Quotient.lift (fun x => ofHalves (f x))
    (fun x y hxy => Quotient.sound ((h x).trans ((congrArg g hxy).trans (h y).symm))) fifo

/-- Reads off the halves what `g` gives for the elements, whatever the halves are. -/
def view {β : Type} (f : Halves α → β) (g : List α → β) (h : ∀ x, g x.toList = f x)
    (fifo : Fifo α) : β :=
  Quotient.lift f (fun x y hxy => (h x).symm.trans ((congrArg g hxy).trans (h y))) fifo

def ofList (as : List α) : Fifo α := ofHalves { front := as }

def empty : Fifo α := ofList []

/-- Adds a newest element. -/
def push (fifo : Fifo α) (a : α) : Fifo α :=
  fifo.change (·.push a) (· ++ [a]) fun _ => Halves.toList_push a

/-- Adds a list behind the newest element. -/
def append (fifo : Fifo α) (as : List α) : Fifo α :=
  fifo.change (·.append as) (· ++ as) fun _ => Halves.toList_append as

def length (fifo : Fifo α) : Nat :=
  fifo.view Halves.length List.length fun _ => Halves.length_toList

/-- The oldest element. -/
def head? (fifo : Fifo α) : Option α :=
  fifo.view Halves.head? List.head? fun _ => Halves.head?_toList

/-- All but the oldest element. -/
def tail (fifo : Fifo α) : Fifo α :=
  fifo.change Halves.tail List.tail fun _ => Halves.toList_tail

/-- The oldest elements, as long as they satisfy `p`. -/
def takeWhile (p : α → Bool) (fifo : Fifo α) : List α :=
  fifo.view (Halves.takeWhile p) (List.takeWhile p) fun _ => Halves.takeWhile_toList

/-- What follows the oldest elements that satisfy `p`. -/
def dropWhile (p : α → Bool) (fifo : Fifo α) : Fifo α :=
  fifo.change (Halves.dropWhile p) (List.dropWhile p) fun _ => Halves.toList_dropWhile

instance : Inhabited (Fifo α) := ⟨empty⟩

variable {fifo other : Fifo α} {p : α → Bool}

@[ext] theorem ext (h : fifo.toList = other.toList) : fifo = other := by
  induction fifo using Quotient.ind
  induction other using Quotient.ind
  exact Quotient.sound h

theorem toList_inj : fifo.toList = other.toList ↔ fifo = other := ⟨ext, congrArg toList⟩

theorem toList_change {f : Halves α → Halves α} {g : List α → List α}
    {h : ∀ x, (f x).toList = g x.toList} : (fifo.change f g h).toList = g fifo.toList := by
  induction fifo using Quotient.ind
  exact h _

theorem view_toList {β : Type} {f : Halves α → β} {g : List α → β}
    {h : ∀ x, g x.toList = f x} : g fifo.toList = fifo.view f g h := by
  induction fifo using Quotient.ind
  exact h _

@[simp] theorem toList_ofList (as : List α) : (ofList as).toList = as := List.append_nil as

@[simp] theorem ofList_toList (fifo : Fifo α) : ofList fifo.toList = fifo := ext (toList_ofList _)

@[simp] theorem toList_empty : (empty : Fifo α).toList = [] := rfl

@[simp] theorem toList_push (a : α) : (fifo.push a).toList = fifo.toList ++ [a] := toList_change

@[simp] theorem toList_append (as : List α) : (fifo.append as).toList = fifo.toList ++ as :=
  toList_change

@[simp] theorem length_eq : fifo.length = fifo.toList.length := view_toList.symm

@[simp] theorem head?_eq : fifo.head? = fifo.toList.head? := view_toList.symm

@[simp] theorem toList_tail : fifo.tail.toList = fifo.toList.tail := toList_change

@[simp] theorem takeWhile_eq : fifo.takeWhile p = fifo.toList.takeWhile p := view_toList.symm

@[simp] theorem toList_dropWhile : (fifo.dropWhile p).toList = fifo.toList.dropWhile p :=
  toList_change

instance [DecidableEq α] : DecidableEq (Fifo α) := fun _ _ => decidable_of_iff _ toList_inj

instance [Repr α] : Repr (Fifo α) := ⟨fun fifo => reprPrec fifo.toList⟩

end Fifo
end LinkLayer
