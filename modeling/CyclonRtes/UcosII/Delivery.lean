import Mathlib.Data.List.Infix
import CyclonRtes.UcosII.ButtonQueue

/-!
# Who gets which button event

All messages in the queue are the same pointer, and what it points to is what the latest activation
of `my_isr` has written there.  The queue therefore delivers the number of events, but not their
contents: a message that is received shows the latest press, whichever press it was posted for.

`delivered_iff` says exactly when this goes unnoticed: whenever the task takes a message, the press
that the message was posted for and the latest press must have read the same word.
-/

namespace CyclonRtes.UcosII

open Channel CStrings Synchronous

/-- A list with one more element is a prefix exactly when the list is one and the element comes
next. -/
lemma concat_prefix_iff {α : Type*} {l m : List α} {a : α} :
    l ++ [a] <+: m ↔ l <+: m ∧ m[l.length]? = some a := by
  constructor
  · rintro ⟨r, rfl⟩
    exact ⟨⟨[a] ++ r, by rw [List.append_assoc]⟩, by simp⟩
  · rintro ⟨⟨r, rfl⟩, ha⟩
    rw [List.getElem?_append_right (le_refl _), Nat.sub_self] at ha
    cases r with
    | nil => simp at ha
    | cons b r =>
      obtain rfl : b = a := by simpa using ha
      exact ⟨r, by simp⟩

/-! ## One event -/

section Step

variable {s : Application} {b b' : Word}

/-- Different words give different messages. -/
lemma contentOf_injective : Function.Injective contentOf := by
  intro b b' h
  have hb : (0b111 : Word) ^^^ b = 0b111 ^^^ b' := congrArg Content.button h
  exact (BitVec.xor_right_inj _).mp hb

/-- After an activation every pointer points to its message. -/
lemma content_myIsr (p : MBInfoPtr) : ((s.myIsr b b').memory p).content = contentOf b := by
  cases p
  simp only [Application.myIsr, Function.update_self, MBInfo.content, contentOf]
  rw [CharArray.text_strcpy _ _ (nul_notMem_edgeText _)]

/-- A step that takes a pointer removes it from the queue and leaves the memory alone. -/
lemma queueTask_of_takes {p : MBInfoPtr} (h : s.takes = some p) :
    ∃ q, s.queue.pend = some (p, q) ∧ s.queueTask = { s with queue := q, task := .light p } := by
  cases htask : s.task with
  | light _ => simp [Application.takes, htask] at h
  | pend =>
    rw [Application.takes, htask] at h
    obtain ⟨⟨p', q⟩, hq, rfl⟩ := Option.map_eq_some_iff.mp h
    exact ⟨q, hq, by simp [Application.queueTask, htask, hq]⟩

/-- A step of the task that takes no pointer leaves queue and memory alone. -/
lemma queueTask_of_takes_none (h : s.takes = none) :
    s.queueTask.queue = s.queue ∧ s.queueTask.memory = s.memory := by
  cases htask : s.task with
  | light _ => simp [Application.queueTask, htask]
  | pend =>
    simp only [Application.takes, htask, Option.map_eq_none_iff] at h
    simp [Application.queueTask, htask, h]

end Step

section Run

variable {s : Application} {i : ℕ → Event} {t : ℕ}

/-- What an event can do: post a message, deliver one, or neither. -/
lemma event_cases :
    (∃ b b', i t = .isr b b' ∧ application s i (t + 1) = (application s i t).myIsr b b' ∧
        presses s i (t + 1) = presses s i t ++ [b] ∧ received s i (t + 1) = received s i t) ∨
      (∃ p q, Takes s i t ∧ (application s i t).queue.pend = some (p, q) ∧
        (application s i (t + 1)).queue = q ∧
        (application s i (t + 1)).memory = (application s i t).memory ∧
        presses s i (t + 1) = presses s i t ∧
        received s i (t + 1) = received s i t ++ [((application s i t).memory p).content]) ∨
      ¬ Takes s i t ∧ (application s i (t + 1)).queue = (application s i t).queue ∧
        (application s i (t + 1)).memory = (application s i t).memory ∧
        presses s i (t + 1) = presses s i t ∧ received s i (t + 1) = received s i t := by
  have hstep : application s i (t + 1) = (application s i t).step (i t) := rfl
  have hpresses : presses s i (t + 1) = presses s i t ++ (i t).presses := rfl
  have hreceived : received s i (t + 1) =
      received s i t ++ (application s i t).receives (i t) := rfl
  rw [hstep, hpresses, hreceived]
  cases hx : i t with
  | isr b b' => exact .inl ⟨b, b', rfl, rfl, rfl, List.append_nil _⟩
  | queueTask =>
    refine .inr ?_
    cases htakes : (application s i t).takes with
    | none =>
      obtain ⟨hq, hm⟩ := queueTask_of_takes_none htakes
      refine .inr ⟨?_, hq, hm, List.append_nil _, ?_⟩
      · rintro ⟨-, h⟩
        simp [htakes] at h
      · simp [Application.receives, htakes]
    | some p =>
      obtain ⟨q, hq, hs⟩ := queueTask_of_takes htakes
      refine .inl ⟨p, q, ⟨hx, by simp [htakes]⟩, hq, ?_, ?_, List.append_nil _, ?_⟩
      · rw [Application.step, hs]
      · rw [Application.step, hs]
      · simp [Application.receives, htakes]

/-- What the queue accounts for: the number of messages, and the content of the latest. -/
structure Accounts (s : Application) (i : ℕ → Event) (t : ℕ) : Prop where
  /-- Every press has been received or is in the queue. -/
  count : (received s i t).length + (application s i t).queue.items.length =
    (presses s i t).length
  /-- Every pointer points to the message of the latest press. -/
  newest : ∀ b, (presses s i t).getLast? = some b → ∀ p,
    ((application s i t).memory p).content = contentOf b

/-- The step lemma: an event that does not post an eleventh message keeps account. -/
lemma Accounts.succ (h : Accounts s i t)
    (hten : (presses s i (t + 1)).length ≤ (received s i (t + 1)).length + 10) :
    Accounts s i (t + 1) := by
  have hcount := h.count
  obtain ⟨b, b', -, happ, hp, hr⟩ | ⟨p, q, -, hq, hqueue, hmem, hp, hr⟩ |
    ⟨-, hqueue, hmem, hp, hr⟩ := event_cases (s := s) (i := i) (t := t)
  · have hroom : (application s i t).queue.items.length < 10 := by
      rw [hp, hr, List.length_append, List.length_singleton] at hten
      omega
    have hitems : (application s i (t + 1)).queue.items =
        (application s i t).queue.items ++ [.myMBInfo] := by
      rw [happ]
      exact Fifo.items_post hroom
    constructor
    · rw [hitems, hp, hr]
      simp only [List.length_append, List.length_singleton]
      omega
    · intro c hc p
      obtain rfl : b = c := by simpa [hp] using hc
      rw [happ]
      exact content_myIsr p
  · constructor
    · have hitems := congrArg List.length (Fifo.items_of_pend hq)
      rw [hqueue, hp, hr]
      simp only [List.length_append, List.length_cons, List.length_nil] at hitems ⊢
      omega
    · rw [hp, hmem]
      exact h.newest
  · constructor
    · rw [hqueue, hp, hr]
      exact hcount
    · rw [hp, hmem]
      exact h.newest

/-- The run lemma: as long as at most ten messages are outstanding, the queue keeps account. -/
theorem accounts_of_atMostTenOutstanding (hs : s.Initial) (hten : AtMostTenOutstanding s i)
    (t : ℕ) : Accounts s i t := by
  induction t with
  | zero =>
    refine ⟨?_, fun b hb => absurd hb (by simp [presses])⟩
    simp [received, presses, application, hs.queue]
  | succ t ih => exact ih.succ (hten (t + 1))

/-- The oldest message in the queue is for the press after those that have been received. -/
lemma Accounts.oldestPress_eq (h : Accounts s i t) :
    oldestPress s i t = (presses s i t)[(received s i t).length]? := by
  have hcount := h.count
  rw [oldestPress]
  congr 1
  omega

/-- The content received is that of the latest press, and there is one. -/
lemma Accounts.exists_newest (h : Accounts s i t) {p : MBInfoPtr} {q : Fifo MBInfoPtr 10}
    (hq : (application s i t).queue.pend = some (p, q)) :
    ∃ b, (presses s i t).getLast? = some b ∧
      ((application s i t).memory p).content = contentOf b := by
  have hcount := h.count
  rw [Fifo.items_of_pend hq, List.length_cons] at hcount
  have hne : presses s i t ≠ [] := by
    intro hnil
    rw [hnil, List.length_nil] at hcount
    omega
  exact ⟨_, List.getLast?_eq_some_getLast hne, h.newest _ (List.getLast?_eq_some_getLast hne) p⟩

/-- The message of the latest press is the next one to be delivered exactly when the press that it
was posted for has read the same word. -/
lemma Accounts.concat_prefix_iff (h : Accounts s i t) {p : MBInfoPtr} {q : Fifo MBInfoPtr 10}
    (hq : (application s i t).queue.pend = some (p, q)) :
    received s i t ++ [((application s i t).memory p).content] <+:
        (presses s i t).map contentOf ↔
      received s i t <+: (presses s i t).map contentOf ∧
        oldestPress s i t = (presses s i t).getLast? := by
  obtain ⟨b, hb, hcontent⟩ := h.exists_newest hq
  rw [hcontent, UcosII.concat_prefix_iff, List.getElem?_map, h.oldestPress_eq, hb,
    Option.map_eq_some_iff]
  refine and_congr_right fun _ => ?_
  constructor
  · rintro ⟨c, hc, hcb⟩
    rw [hc, contentOf_injective hcb]
  · intro hc
    exact ⟨b, hc, rfl⟩

/-- As long as at most ten messages are outstanding, every message received is that of its own
press if and only if, whenever the task takes a message, the press that the message was posted for
and the latest press have read the same word. -/
theorem delivered_iff (hs : s.Initial) (hten : AtMostTenOutstanding s i) :
    Delivered s i ↔
      ∀ t, Takes s i t → oldestPress s i t = (presses s i t).getLast? := by
  have hacc := accounts_of_atMostTenOutstanding hs hten
  constructor
  · intro hdel t htakes
    obtain ⟨b, b', hx, -⟩ | ⟨p, q, -, hq, -, -, hp, hr⟩ | ⟨hno, -⟩ :=
      event_cases (s := s) (i := i) (t := t)
    · exact absurd (hx.symm.trans htakes.1) (by simp)
    · have hnext := hdel (t + 1)
      rw [hp, hr, (hacc t).concat_prefix_iff hq] at hnext
      exact hnext.2
    · exact absurd htakes hno
  · intro hsame t
    induction t with
    | zero => exact List.nil_prefix
    | succ t ih =>
      obtain ⟨b, b', -, -, hp, hr⟩ | ⟨p, q, htakes, hq, -, -, hp, hr⟩ | ⟨-, -, -, hp, hr⟩ :=
        event_cases (s := s) (i := i) (t := t)
      · rw [hp, hr, List.map_append]
        exact ih.trans (List.prefix_append _ _)
      · rw [hp, hr, (hacc t).concat_prefix_iff hq]
        exact ⟨ih, hsame t htakes⟩
      · rw [hp, hr]
        exact ih

end Run

/-! ## Two presses -/

/-- The application before the first press. -/
def started : Application where
  memory _ := ⟨⟨List.replicate 10 nul, rfl⟩, 0⟩
  queue := .empty
  edgeCapture := 0
  leds := 0
  task := .pend

/-- The application has just been started. -/
lemma initial_started : started.Initial := ⟨rfl, rfl⟩

/-- The first button is pressed, then the second one, and the task takes the messages afterwards. -/
def twoPresses : ℕ → Event
  | 0 => .isr 0b110 0b110
  | 1 => .isr 0b101 0b101
  | _ => .queueTask

/-- The same presses, but the task takes the first message before the second press. -/
def pressAndTake : ℕ → Event
  | 0 => .isr 0b110 0b110
  | 3 => .isr 0b101 0b101
  | _ => .queueTask

/-- After event `n` only the task makes steps, and there is nothing left for it to take. -/
lemma settled_of_empty {s : Application} {i : ℕ → Event} {n : ℕ}
    (hi : ∀ t, n ≤ t → i t = .queueTask) (hq : (application s i n).queue.items = []) {t : ℕ}
    (ht : n ≤ t) :
    (application s i t).queue.items = [] ∧ presses s i t = presses s i n ∧
      received s i t = received s i n := by
  induction t, ht using Nat.le_induction with
  | base => exact ⟨hq, rfl, rfl⟩
  | succ t ht ih =>
    obtain ⟨b, b', hx, -⟩ | ⟨p, q, -, hpend, -⟩ | ⟨-, hqueue, -, hp, hr⟩ :=
      event_cases (s := s) (i := i) (t := t)
    · exact absurd (hx.symm.trans (hi t ht)) (by simp)
    · exact absurd (Fifo.items_of_pend hpend) (by simp [ih.1])
    · rw [hqueue, hp, hr]
      exact ih

/-- After six events only the task makes steps. -/
lemma twoPresses_of_le {t : ℕ} (ht : 6 ≤ t) : twoPresses t = .queueTask := by
  obtain ⟨t, rfl⟩ := Nat.exists_eq_add_of_le' ht
  rfl

/-- After six events the other schedule has ended, too. -/
lemma pressAndTake_of_le {t : ℕ} (ht : 6 ≤ t) : pressAndTake t = .queueTask := by
  obtain ⟨t, rfl⟩ := Nat.exists_eq_add_of_le' ht
  rfl

/-- If nothing is left to be taken after `n` events, only the events before can meet more than ten
outstanding messages. -/
lemma atMostTenOutstanding_of_settled {s : Application} {i : ℕ → Event} {n : ℕ}
    (hi : ∀ t, n ≤ t → i t = .queueTask) (hq : (application s i n).queue.items = [])
    (h : ∀ t ≤ n, (presses s i t).length ≤ (received s i t).length + 10) :
    AtMostTenOutstanding s i := by
  intro t
  rcases Nat.le_total t n with ht | ht
  · exact h t ht
  · obtain ⟨-, hp, hr⟩ := settled_of_empty hi hq ht
    rw [hp, hr]
    exact h n (le_refl n)

/-- Two presses before the task takes a message: both messages show the second press. -/
theorem delivered_fails_twoPresses :
    started.Initial ∧ AtMostTenOutstanding started twoPresses ∧
      ¬ Delivered started twoPresses := by
  refine ⟨initial_started, atMostTenOutstanding_of_settled (fun _ => twoPresses_of_le)
    (by decide) (by decide), fun h => ?_⟩
  exact absurd (h 3) (by decide)

/-- The theorem at a schedule in which each message is taken before the next press. -/
theorem delivered_iff_pressAndTake :
    AtMostTenOutstanding started pressAndTake ∧ Delivered started pressAndTake := by
  have hempty : (application started pressAndTake 6).queue.items = [] := by decide
  have hten : AtMostTenOutstanding started pressAndTake :=
    atMostTenOutstanding_of_settled (fun _ => pressAndTake_of_le) hempty (by decide)
  refine ⟨hten, (delivered_iff initial_started hten).mpr fun t htakes => ?_⟩
  have hfirst : ∀ t < 6, Takes started pressAndTake t →
      oldestPress started pressAndTake t = (presses started pressAndTake t).getLast? := by decide
  refine hfirst t (Nat.lt_of_not_le fun ht => ?_) htakes
  obtain ⟨hitems, -⟩ := settled_of_empty (fun _ => pressAndTake_of_le) hempty ht
  obtain ⟨p, hp⟩ := Option.isSome_iff_exists.mp htakes.2
  obtain ⟨q, hq, -⟩ := queueTask_of_takes hp
  exact absurd (Fifo.items_of_pend hq) (by simp [hitems])

end CyclonRtes.UcosII
