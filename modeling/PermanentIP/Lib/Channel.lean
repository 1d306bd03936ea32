import Mathlib.Data.List.Basic

/-!
# A channel that may lose what it carries

A first-in first-out channel over an arbitrary type, with its history: what was
sent, what is under way, what got through. Where each message carries a value
and only the newest matters, losing one is harmless as long as a newer one is
behind it, or as long as the receiver has that value anyway. `UpToDate` is the
invariant that says so, and `upToDate_lose_iff` that a loss which is neither
breaks it. Whatever is lost, what gets through does so in the order it was sent
(`Ordered`).
-/

namespace PermanentIP.Lib

structure Channel (α : Type*) where
  sent : List α
  flight : List α
  received : List α

namespace Channel

variable {α β : Type*} {c : Channel α} {f : α → β} {b : β} {x : α}
  {rest : List α}

def empty : Channel α := ⟨[], [], []⟩

def send (c : Channel α) (l : List α) : Channel α :=
  { c with sent := c.sent ++ l, flight := c.flight ++ l }

def deliver (c : Channel α) : Channel α :=
  { c with
    flight := c.flight.tail
    received := c.received ++ c.flight.head?.toList }

def lose (c : Channel α) : Channel α := { c with flight := c.flight.tail }

/-- The newest value that was sent, or `b` if none was. -/
def lastSent (f : α → β) (b : β) (c : Channel α) : β :=
  (c.sent.map f).getLastD b

/-- The newest value that got through, or `b` if none did. -/
def lastReceived (f : α → β) (b : β) (c : Channel α) : β :=
  (c.received.map f).getLastD b

/-- The newest value sent is the newest one under way, or, with nothing under
way, the newest one that got through. -/
def UpToDate (f : α → β) (b : β) (c : Channel α) : Prop :=
  (c.flight.map f).getLastD (c.lastReceived f b) = c.lastSent f b

theorem getLastD_append (l m : List β) (b : β) :
    (l ++ m).getLastD b = m.getLastD (l.getLastD b) := by
  induction l generalizing b with
  | nil => rfl
  | cons a l ih => rw [List.cons_append, List.getLastD_cons, ih, List.getLastD_cons]

theorem upToDate_empty : (empty : Channel α).UpToDate f b := rfl

theorem lastSent_send_singleton : (c.send [x]).lastSent f b = f x := by
  rw [lastSent, send, List.map_append]
  exact List.getLastD_concat

theorem upToDate_send_singleton : (c.send [x]).UpToDate f b := by
  rw [UpToDate, lastSent_send_singleton, send, List.map_append]
  exact List.getLastD_concat

theorem UpToDate.deliver (h : c.UpToDate f b) : c.deliver.UpToDate f b := by
  rw [UpToDate] at h ⊢
  rw [lastReceived, Channel.deliver, List.map_append, getLastD_append]
  refine Eq.trans ?_ h
  cases c.flight with
  | nil => rfl
  | cons x rest => exact (List.getLastD_cons ..).symm

/-- With something behind it, a message is not missed. -/
theorem UpToDate.lose_of_ne_nil (h : c.UpToDate f b) (hf : c.flight = x :: rest)
    (hrest : rest ≠ []) : c.lose.UpToDate f b := by
  rw [UpToDate, hf, List.map_cons, List.getLastD_cons] at h
  refine Eq.trans ?_ h
  show ((c.flight.tail).map f).getLastD _ = _
  rw [hf, List.tail_cons]
  cases rest with
  | nil => exact absurd rfl hrest
  | cons y rest => rw [List.map_cons, List.getLastD_cons, List.getLastD_cons]

/-- With nothing behind it, it is, unless it repeats what got through. -/
theorem upToDate_lose_iff (h : c.UpToDate f b) (hf : c.flight = [x]) :
    c.lose.UpToDate f b ↔ f x = c.lastReceived f b := by
  rw [UpToDate, hf] at h
  have hx : f x = c.lastSent f b := h
  rw [hx, UpToDate, lose, hf]
  exact eq_comm

theorem upToDate_iff_of_flight_nil (hf : c.flight = []) :
    c.UpToDate f b ↔ c.lastReceived f b = c.lastSent f b := by
  rw [UpToDate, hf]
  exact Iff.rfl

/-- What got through, then what is under way, in the order it was sent, with gaps
where something was lost. -/
def Ordered (c : Channel α) : Prop := (c.received ++ c.flight).Sublist c.sent

theorem ordered_empty : (empty : Channel α).Ordered := List.Sublist.refl []

theorem Ordered.send (h : c.Ordered) (l : List α) : (c.send l).Ordered := by
  rw [Ordered, Channel.send, ← List.append_assoc]
  exact h.append (List.Sublist.refl l)

theorem Ordered.deliver (h : c.Ordered) : c.deliver.Ordered := by
  rw [Ordered, Channel.deliver, List.append_assoc]
  cases hf : c.flight with
  | nil => rwa [Ordered, hf] at h
  | cons x rest => rwa [Ordered, hf] at h

theorem Ordered.lose (h : c.Ordered) : c.lose.Ordered :=
  ((List.tail_sublist _).append_left _).trans h

theorem Ordered.received (h : c.Ordered) : c.received.Sublist c.sent :=
  (List.sublist_append_left _ _).trans h

end Channel

end PermanentIP.Lib
