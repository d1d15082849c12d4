import CyclonRtes.UcosII.Delivery

/-!
# The message queue under overflow

A post to a full queue is refused; `OSQPost` is documented to return `OS_Q_FULL` then.  `my_isr`
does not look at what it returns, so a press whose message meets a full queue is lost without a
trace.  This file accounts for all presses, however many there are and however slow
the task is (`queue_accounts`): each of them has been received, is in the queue or has been refused,
and a press is refused only while ten messages are outstanding.  What the task receives is always
the complete message of one press, with a button number and a text that belong together: that of the
latest press before.
-/

namespace CyclonRtes.UcosII

open Channel CStrings Synchronous

/-- The word read by an activation whose message the full queue refuses (`OS_Q_FULL`). -/
def Application.refuses (s : Application) : Event → List Word
  | .isr buttons _ => if s.queue.items.length = 10 then [buttons] else []
  | .queueTask => []

section Run

variable (s : Application) (i : ℕ → Event)

/-- The words read from the buttons by the activations, among the first `t` events, whose messages
were refused. -/
def refused (t : ℕ) : List Word := log Application.refuses Application.step s i t

/-- The message of the press before event `t` that came last. -/
def latestMessage (t : ℕ) : Option Content := (presses s i t).getLast?.map contentOf

/-- The account of the first `t` events. -/
structure QueueAccounts (t : ℕ) : Prop where
  /-- Every press has been received, is in the queue or has been refused. -/
  total : (received s i t).length + (application s i t).queue.items.length +
    (refused s i t).length = (presses s i t).length
  /-- Every message received was that of the latest press when it was received. -/
  whole : ∀ k c, (received s i t)[k]? = some c → ∃ u < t, Takes s i u ∧
    (received s i u).length = k ∧ latestMessage s i u = some c
  /-- Every pointer points to the message of the latest press. -/
  newest : ∀ c, latestMessage s i t = some c → ∀ p, ((application s i t).memory p).content = c

variable {s i} {t : ℕ}

/-- An activation refuses at most its own press. -/
lemma refused_succ : refused s i (t + 1) =
    refused s i t ++ (application s i t).refuses (i t) := rfl

/-- A step of the task refuses nothing. -/
lemma refused_of_queueTask (h : ∀ b b', i t ≠ .isr b b') :
    refused s i (t + 1) = refused s i t := by
  rw [refused_succ]
  cases hx : i t with
  | isr b b' => exact absurd hx (h b b')
  | queueTask => exact List.append_nil _

/-- A list with one more element has the elements of the list and that one. -/
lemma getElem?_concat_eq_some {α : Type*} {l : List α} {a c : α} {k : ℕ}
    (h : (l ++ [a])[k]? = some c) : l[k]? = some c ∨ k = l.length ∧ c = a := by
  rcases Nat.lt_trichotomy k l.length with hk | rfl | hk
  · exact .inl (by rwa [List.getElem?_append_left hk] at h)
  · exact .inr ⟨rfl, by simpa using h.symm⟩
  · rw [List.getElem?_eq_none (by simp; omega)] at h
    exact absurd h (by simp)

/-- What has been received stays received. -/
lemma QueueAccounts.whole_succ (h : QueueAccounts s i t) :
    ∀ k c, (received s i t)[k]? = some c → ∃ u < t + 1, Takes s i u ∧
      (received s i u).length = k ∧ latestMessage s i u = some c := by
  intro k c hk
  obtain ⟨u, hu, hrest⟩ := h.whole k c hk
  exact ⟨u, Nat.lt_succ_of_lt hu, hrest⟩

/-- An activation of the interrupt service routine keeps account. -/
lemma QueueAccounts.isr {b b' : Word} (h : QueueAccounts s i t) (hx : i t = .isr b b')
    (happ : application s i (t + 1) = (application s i t).myIsr b b')
    (hp : presses s i (t + 1) = presses s i t ++ [b])
    (hr : received s i (t + 1) = received s i t) : QueueAccounts s i (t + 1) := by
  have htotal := h.total
  constructor
  · rw [hp, hr, happ, refused_succ, hx, Application.refuses]
    have hbound := (application s i t).queue.bounded
    change _ + ((application s i t).queue.post .myMBInfo).items.length + _ = _
    by_cases hfull : (application s i t).queue.items.length = 10
    · rw [Fifo.post_of_full hfull, if_pos hfull]
      simp only [List.length_append, List.length_singleton]
      omega
    · rw [Fifo.items_post (by omega), if_neg hfull]
      simp only [List.length_append, List.length_singleton, List.length_nil]
      omega
  · rw [hr]
    exact h.whole_succ
  · intro c hc p
    rw [happ, content_myIsr]
    simpa [latestMessage, hp] using hc

/-- A step of the task that takes a message keeps account. -/
lemma QueueAccounts.takes {p : MBInfoPtr} {q : Fifo MBInfoPtr 10} (h : QueueAccounts s i t)
    (htakes : Takes s i t) (hq : (application s i t).queue.pend = some (p, q))
    (hqueue : (application s i (t + 1)).queue = q)
    (hmem : (application s i (t + 1)).memory = (application s i t).memory)
    (hp : presses s i (t + 1) = presses s i t)
    (hr : received s i (t + 1) =
      received s i t ++ [((application s i t).memory p).content]) : QueueAccounts s i (t + 1) := by
  have htotal := h.total
  have hitems := congrArg List.length (Fifo.items_of_pend hq)
  rw [List.length_cons] at hitems
  constructor
  · rw [hp, hr, hqueue, refused_of_queueTask (by simp [htakes.1]), List.length_append,
      List.length_singleton]
    omega
  · intro k c hk
    rw [hr] at hk
    rcases getElem?_concat_eq_some hk with hk | ⟨rfl, rfl⟩
    · exact h.whole_succ k c hk
    · refine ⟨t, Nat.lt_succ_self t, htakes, rfl, ?_⟩
      -- the queue is not empty, so there has been a press
      obtain ⟨c, hc⟩ : ∃ c, latestMessage s i t = some c := by
        cases hlast : (presses s i t).getLast? with
        | some b => exact ⟨contentOf b, by simp [latestMessage, hlast]⟩
        | none =>
          rw [List.getLast?_eq_none_iff] at hlast
          rw [hlast, List.length_nil] at htotal
          omega
      rw [hc, h.newest c hc p]
  · intro c hc p
    rw [hmem]
    exact h.newest c (by rwa [latestMessage, hp] at hc) p

/-- The queue accounts for all presses, for every sequence of activations and task steps. -/
theorem queue_accounts (hs : s.Initial) (t : ℕ) : QueueAccounts s i t := by
  induction t with
  | zero =>
    refine ⟨?_, fun k c hk => absurd hk (by simp [received]), fun c hc => ?_⟩
    · simp [received, presses, refused, application, hs.queue]
    · exact absurd hc (by simp [latestMessage, presses])
  | succ t ih =>
    have hcases := event_cases (s := s) (i := i) (t := t)
    obtain ⟨b, b', hx, happ, hp, hr⟩ | ⟨p, q, htakes, hq, hqueue, hmem, hp, hr⟩ |
      ⟨-, hqueue, hmem, hp, hr⟩ := hcases
    · exact ih.isr hx happ hp hr
    · exact ih.takes htakes hq hqueue hmem hp hr
    · have hrefused : refused s i (t + 1) = refused s i t := by
        refine refused_of_queueTask fun b b' hx => ?_
        have hlen := congrArg List.length hp
        have : presses s i (t + 1) = presses s i t ++ (i t).presses := rfl
        rw [this, hx] at hlen
        simp [Event.presses] at hlen
      refine ⟨?_, ?_, fun c hc p => ?_⟩
      · rw [hqueue, hp, hr, hrefused]
        exact ih.total
      · rw [hr]
        exact ih.whole_succ
      · rw [hmem]
        exact ih.newest c (by rwa [latestMessage, hp] at hc) p

/-- Twelve presses before the task makes its first step. -/
def burst (t : ℕ) : Event := if t < 12 then .isr (BitVec.ofNat 32 (t % 7)) 0 else .queueTask

/-- Of the twelve presses two are refused. -/
theorem queue_accounts_burst :
    (refused started burst 40).length = 2 ∧ QueueAccounts started burst 40 :=
  ⟨by decide, queue_accounts initial_started 40⟩

end Run

end CyclonRtes.UcosII
