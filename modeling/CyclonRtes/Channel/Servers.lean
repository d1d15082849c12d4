import Mathlib.Logic.Function.Basic

/-!
# Servers that are used one at a time

Each of several servers answers its own requests in their order, but nothing is said about the order
between servers.  If a request is made of a server only while the others have nothing left to
answer, the answers come in the order of the requests: the list of all unanswered requests is the
queue of a single server (`OneBusy`), which every request (`OneBusy.ask`) and every answer
(`OneBusy.answer`) keeps.
-/

namespace Channel

variable {α β : Type*}

/-- The queues after a request `b` of the server `p`. -/
def ask [DecidableEq α] (queue : α → List β) (p : α) (b : β) : α → List β :=
  Function.update queue p (queue p ++ [b])

/-- The queues after an answer of the server `p`. -/
def answer [DecidableEq α] (queue : α → List β) (p : α) : α → List β :=
  Function.update queue p (queue p).tail

/-- One server holds the requests `pending`, the others hold none. -/
def OneBusy (queue : α → List β) (pending : List β) : Prop :=
  ∃ p, queue p = pending ∧ ∀ i ≠ p, queue i = []

variable {queue : α → List β} {pending : List β} {p : α} {b : β}

/-- Among servers without requests any of them can be the one. -/
lemma oneBusy_empty [Nonempty α] : OneBusy (fun _ : α => ([] : List β)) [] :=
  ⟨Classical.arbitrary α, rfl, fun _ _ => rfl⟩

namespace OneBusy

/-- A server with requests is the one that is busy. -/
lemma queue_eq (h : OneBusy queue pending) (hp : queue p ≠ []) :
    queue p = pending ∧ ∀ i ≠ p, queue i = [] := by
  obtain ⟨q, hq, hothers⟩ := h
  obtain rfl : p = q := by
    by_contra hne
    exact hp (hothers p hne)
  exact ⟨hq, hothers⟩

/-- A server whose others have nothing left to answer holds all requests. -/
lemma queue_eq_of_others (h : OneBusy queue pending) (hp : ∀ i ≠ p, queue i = []) :
    queue p = pending := by
  obtain ⟨q, hq, hothers⟩ := h
  by_cases hpq : p = q
  · rw [hpq, hq]
  · rw [hothers p hpq, ← hq, hp q (Ne.symm hpq)]

/-- All queues are empty if there is no request. -/
lemma queue_eq_nil (h : OneBusy queue []) (i : α) : queue i = [] := by
  by_contra hi
  exact hi (h.queue_eq hi).1

variable [DecidableEq α]

/-- An answer is to the oldest request. -/
lemma answer (h : OneBusy queue pending) (hp : queue p ≠ []) :
    OneBusy (answer queue p) pending.tail ∧ (queue p).head? = pending.head? := by
  obtain ⟨hpending, hothers⟩ := h.queue_eq hp
  refine ⟨⟨p, ?_, fun i hi => ?_⟩, by rw [hpending]⟩
  · rw [Channel.answer, Function.update_self, hpending]
  · rw [Channel.answer, Function.update_of_ne hi, hothers i hi]

/-- A request of a server whose others have nothing left to answer comes behind all others. -/
lemma ask (h : OneBusy queue pending) (hp : ∀ i ≠ p, queue i = []) :
    OneBusy (ask queue p b) (pending ++ [b]) := by
  refine ⟨p, ?_, fun i hi => ?_⟩
  · rw [Channel.ask, Function.update_self, h.queue_eq_of_others hp]
  · rw [Channel.ask, Function.update_of_ne hi, hp i hi]

end OneBusy

end Channel
