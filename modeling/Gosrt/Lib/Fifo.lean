import Mathlib.Data.List.Infix
import Mathlib.Logic.Relation

/-!
# `Gosrt.Lib.Fifo`: a queue that can lose items

A `Fifo` is the way of a stream of items from one place to another, with its history: what went in,
what is on the way, and what came out. Items on the way can be lost, and the way can be closed.

`Reaches` relates two states by any number of steps. What comes out is a sublist of what went in,
and as long as nothing was lost it is an initial part of it (`Ordered`). A component that takes an
item through several queues keeps this order if each of its steps is a step of a `Fifo`.
-/

set_option autoImplicit false

namespace Gosrt.Lib

variable {α : Type}

/-- The way of a stream, with its history. -/
structure Fifo (α : Type) where
  sent : List α
  inFlight : List α
  received : List α
  lost : Bool
  closed : Bool

namespace Fifo

/-- Some items are on the way already. -/
def start (backlog : List α) : Fifo α where
  sent := backlog
  inFlight := backlog
  received := []
  lost := false
  closed := false

/-- What can happen on the way. -/
inductive Step : Fifo α → Fifo α → Prop where
  | send (f : Fifo α) (a : α) (hopen : f.closed = false) :
      Step f { f with sent := f.sent ++ [a], inFlight := f.inFlight ++ [a] }
  | lose (f : Fifo α) (before after : List α) (a : α) (h : f.inFlight = before ++ a :: after) :
      Step f { f with inFlight := before ++ after, lost := true }
  | receive (f : Fifo α) (rest : List α) (a : α) (h : f.inFlight = a :: rest) :
      Step f { f with inFlight := rest, received := f.received ++ [a] }
  | close (f : Fifo α) : Step f { f with inFlight := [], closed := true }

/-- Any number of steps. -/
def Reaches (f g : Fifo α) : Prop := Relation.ReflTransGen Step f g

/-- Nothing is out of order, and nothing comes twice. Without a loss nothing is left out. -/
structure Ordered (f : Fifo α) : Prop where
  sublist : (f.received ++ f.inFlight).Sublist f.sent
  initial : f.lost = false → f.received ++ f.inFlight <+: f.sent
  complete : f.lost = false → f.closed = false → f.received ++ f.inFlight = f.sent

section
variable {f g h : Fifo α}

theorem Reaches.refl (f : Fifo α) : Reaches f f := Relation.ReflTransGen.refl

theorem Reaches.of_eq (heq : f = g) : Reaches f g := heq ▸ Reaches.refl f

theorem Reaches.trans (hfg : Reaches f g) (hgh : Reaches g h) : Reaches f h :=
  Relation.ReflTransGen.trans hfg hgh

theorem Step.reaches (hstep : Step f g) : Reaches f g := Relation.ReflTransGen.single hstep

/-- An item that is lost at once. -/
theorem reaches_sendLost (f : Fifo α) (a : α) (hopen : f.closed = false) :
    Reaches f { f with sent := f.sent ++ [a], lost := true } := by
  refine (Step.send f a hopen).reaches.trans ?_
  have hlose := Step.lose { f with sent := f.sent ++ [a], inFlight := f.inFlight ++ [a] }
    f.inFlight [] a rfl
  simp only [List.append_nil] at hlose
  exact hlose.reaches

theorem ordered_start (backlog : List α) : Ordered (start backlog) where
  sublist := List.Sublist.refl _
  initial _ := List.prefix_refl _
  complete _ _ := rfl

/-- A step keeps the order. -/
theorem Ordered.of_step (hordered : Ordered f) (hstep : Step f g) : Ordered g := by
  cases hstep with
  | send a hopen =>
    have hassoc : f.received ++ (f.inFlight ++ [a]) = f.received ++ f.inFlight ++ [a] :=
      (List.append_assoc _ _ _).symm
    constructor
    · show (f.received ++ (f.inFlight ++ [a])).Sublist (f.sent ++ [a])
      rw [hassoc]
      exact hordered.sublist.append (List.Sublist.refl _)
    · intro hlost
      show f.received ++ (f.inFlight ++ [a]) <+: f.sent ++ [a]
      rw [hassoc, hordered.complete hlost hopen]
    · intro hlost _
      show f.received ++ (f.inFlight ++ [a]) = f.sent ++ [a]
      rw [hassoc, hordered.complete hlost hopen]
  | lose before after a h =>
    constructor
    · -- Without the lost item there is less on the way than before.
      have hless : (before ++ after).Sublist f.inFlight := by
        rw [h]
        exact (List.Sublist.refl _).append (List.sublist_cons_self _ _)
      exact ((List.Sublist.refl _).append hless).trans hordered.sublist
    · intro hlost
      cases hlost
    · intro hlost
      cases hlost
  | receive rest a h =>
    have hmoved : f.received ++ [a] ++ rest = f.received ++ f.inFlight := by
      rw [h, List.append_assoc, List.singleton_append]
    constructor
    · show (f.received ++ [a] ++ rest).Sublist f.sent
      rw [hmoved]
      exact hordered.sublist
    · show f.lost = false → f.received ++ [a] ++ rest <+: f.sent
      rw [hmoved]
      exact hordered.initial
    · show f.lost = false → f.closed = false → f.received ++ [a] ++ rest = f.sent
      rw [hmoved]
      exact hordered.complete
  | close =>
    have hpart : f.received ++ [] <+: f.received ++ f.inFlight := by
      rw [List.append_nil]
      exact List.prefix_append _ _
    constructor
    · exact hpart.sublist.trans hordered.sublist
    · intro hlost
      exact hpart.trans (hordered.initial hlost)
    · intro _ hopen
      cases hopen

/-- Any number of steps keeps the order. -/
theorem Ordered.of_reaches (hordered : Ordered f) (hreaches : Reaches f g) : Ordered g := by
  induction hreaches with
  | refl => exact hordered
  | tail _ hstep ih => exact ih.of_step hstep

/-- What came out is a part of what went in, in order. -/
theorem received_sublist {backlog : List α} (h : Reaches (start backlog) f) :
    f.received.Sublist f.sent :=
  (List.sublist_append_left _ _).trans ((ordered_start backlog).of_reaches h).sublist

/-- Without a loss it is the first part. -/
theorem received_initial {backlog : List α} (h : Reaches (start backlog) f)
    (hlost : f.lost = false) : f.received <+: f.sent :=
  (List.prefix_append _ _).trans (((ordered_start backlog).of_reaches h).initial hlost)

end

end Fifo

end Gosrt.Lib
