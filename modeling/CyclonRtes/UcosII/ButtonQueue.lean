import Mathlib.Logic.Function.Basic
import CyclonRtes.Avalon.Port
import CyclonRtes.Channel.Fifo
import CyclonRtes.CStrings.CharArray
import CyclonRtes.Synchronous.Trace

/-!
# Button events through a message queue

The part of `ucosIIsyncmechanisms.c` that works: the interrupt service routine `my_isr` fills in the
global `myMBInfo` and posts its address to a queue for ten pointers, `queueTask` pends on the queue.
The queue of uC/OS-II is not part of the repository; it is a `Fifo` of pointers.  A post to a full
queue is refused, as it is documented of `OSQPost`, which then returns `OS_Q_FULL`.

An activation of the interrupt service routine is not interrupted.  The task is preempted between
any two of its steps, which are the pend and the access to the LEDs.  The other tasks wait for ever
for objects that nobody posts to, and do nothing.
-/

namespace CyclonRtes.UcosII

open Channel CStrings Synchronous

/-- The fields of `MBInfo` that are in use. -/
structure MBInfo where
  edge : CharArray 10
  button : Word

/-- The objects of type `MBInfo`: there is one. -/
inductive MBInfoPtr where
  | myMBInfo
  deriving DecidableEq, Repr

/-- The next step of `queueTask`; `pmb` is its local variable. -/
inductive QueueTaskPc where
  | pend
  | light (pmb : MBInfoPtr)
  deriving DecidableEq, Repr

/-- The global variables, the queue, the two peripherals that are written to, with the value last
written, and the task. -/
structure Application where
  memory : MBInfoPtr → MBInfo
  queue : Fifo MBInfoPtr 10
  edgeCapture : Word
  leds : Word
  task : QueueTaskPc

/-- What happens next: an activation of `my_isr`, with the two words that it reads from the buttons,
or a step of `queueTask`. -/
inductive Event where
  | isr (buttons buttonsAgain : Word)
  | queueTask
  deriving DecidableEq, Repr

/-! ## The program -/

/-- The text that `my_isr` chooses for a button number. -/
def edgeText (buttonNumber : Word) : String :=
  if 0 < buttonNumber.toInt then "RISING" else "FALLING"

/-- The texts fit into `edge`. -/
lemma length_edgeText (b : Word) : (edgeText b).length < 10 := by
  unfold edgeText
  split <;> decide

/-- The texts contain no null character. -/
lemma nul_notMem_edgeText (b : Word) : nul ∉ (edgeText b).toList := by
  unfold edgeText
  split <;> decide

/-- One activation of `my_isr`. -/
def Application.myIsr (s : Application) (buttons buttonsAgain : Word) : Application :=
  let buttonNumber : Word := 0b111 ^^^ buttons
  let info := s.memory .myMBInfo
  let info := { info with button := buttonNumber }
  let info := { info with edge := info.edge.strcpy (edgeText buttonNumber) (length_edgeText _) }
  { s with
    edgeCapture := 1
    memory := Function.update s.memory .myMBInfo info
    queue := s.queue.post .myMBInfo
    leds := 0b111 ^^^ buttonsAgain }

/-- One step of `queueTask`.  The pend blocks as long as the queue is empty. -/
def Application.queueTask (s : Application) : Application :=
  match s.task with
  | .pend =>
    match s.queue.pend with
    | none => s
    | some (pmb, queue) => { s with queue := queue, task := .light pmb }
  | .light _ => { s with leds := 0b0001111000, task := .pend }

/-- The next step of the application. -/
def Application.step (s : Application) : Event → Application
  | .isr buttons buttonsAgain => s.myIsr buttons buttonsAgain
  | .queueTask => s.queueTask

/-- The queue has just been created and the task has been started. -/
structure Application.Initial (s : Application) : Prop where
  queue : s.queue = .empty
  task : s.task = .pend

/-! ## Messages -/

/-- What a reader of a message sees. -/
structure Content where
  button : Word
  edge : String
  deriving DecidableEq, Repr

/-- The message that an `MBInfo` contains. -/
def MBInfo.content (m : MBInfo) : Content := ⟨m.button, m.edge.text⟩

/-- The message of an activation that has read the word `buttons`. -/
def contentOf (buttons : Word) : Content := ⟨0b111 ^^^ buttons, edgeText (0b111 ^^^ buttons)⟩

/-- The word that an activation reads from the buttons. -/
def Event.presses : Event → List Word
  | .isr buttons _ => [buttons]
  | .queueTask => []

/-- The pointer that the next step of the task takes from the queue. -/
def Application.takes (s : Application) : Option MBInfoPtr :=
  match s.task with
  | .pend => s.queue.pend.map Prod.fst
  | .light _ => none

/-- The message that the task receives in a step, as it is at that moment. -/
def Application.receives (s : Application) : Event → List Content
  | .isr _ _ => []
  | .queueTask => (s.takes.map fun pmb => (s.memory pmb).content).toList

section Run

variable (s : Application) (i : ℕ → Event)

/-- The application after `t` events. -/
def application (t : ℕ) : Application := run Application.step s i t

/-- The words read from the buttons by the activations among the first `t` events. -/
def presses (t : ℕ) : List Word := log (fun _ => Event.presses) Application.step s i t

/-- The messages received in the first `t` events, as they were when they were received. -/
def received (t : ℕ) : List Content := log Application.receives Application.step s i t

/-- At most ten messages are outstanding at any time. -/
def AtMostTenOutstanding : Prop := ∀ t, (presses s i t).length ≤ (received s i t).length + 10

/-- Every message received is that of the activation with the same number: none is lost, duplicated
or replaced. -/
def Delivered : Prop := ∀ t, received s i t <+: (presses s i t).map contentOf

/-- The task takes a message from the queue as event `t`. -/
def Takes (t : ℕ) : Prop := i t = .queueTask ∧ (application s i t).takes.isSome = true

instance (t : ℕ) : Decidable (Takes s i t) := inferInstanceAs (Decidable (_ ∧ _))

/-- The word that was read from the buttons by the activation whose message is the oldest in the
queue. -/
def oldestPress (t : ℕ) : Option Word :=
  (presses s i t)[(presses s i t).length - (application s i t).queue.items.length]?

end Run

end CyclonRtes.UcosII
