import Mathlib.Data.Fin.VecNotation
import CyclonRtes.Bits.Aligned

/-!
# The address decoders of the processors

In the multiprocessor system the command of a processor first passes a router,
`soc_system_mm_interconnect_0_router.sv` for the first processor and
`soc_system_mm_interconnect_0_router_001.sv` for the second one.  It compares the address with the
ranges of the components one after the other; the last comparison that holds decides.

The memory map of the system is written down in `soc_system.qsys`, with the beginning and the end of
every range.  The comparisons clear the lowest bits of the address instead.  We show that the
routers follow the map (`Processor.router_eq`), and what the two processors have in common: they
meet with the addresses of the interrupt counter, the LEDs and the mutex, and with no others
(`meet_iff`).
-/

namespace CyclonRtes.Interconnect

open Bits

/-! ## The routers -/

/-- What a router adds to a command: the channel, a bit for each way out, and the number of the
destination. -/
structure Route where
  srcChannel : BitVec 15
  destId : BitVec 4
  deriving DecidableEq, Repr

/-- One comparison of a router: the addresses from `low` on and below `high`. -/
structure Branch where
  low : BitVec 18
  high : BitVec 18
  route : Route
  deriving DecidableEq, Repr

/-- `log2ceil`. -/
def log2ceil (val : ℕ) : ℕ := Nat.clog 2 val

/-- `PAD0`, `PAD1` and so on. -/
def Branch.pad (b : Branch) : ℕ := log2ceil (b.high.toNat - b.low.toNat)

/-- The address is in the range, as the router compares it. -/
def Branch.matches (b : Branch) (address : BitVec 18) : Bool := clearLow address b.pad == b.low

/-- The route of an address. -/
def decode (branches : List Branch) (defaultRoute : Route) (address : BitVec 18) : Route :=
  branches.foldl (fun r b => if b.matches address then b.route else r) defaultRoute

/-- `default_decode`, for a default channel that is given. -/
def defaultDecode (defaultChannel : ℕ) (defaultDestId : BitVec 4) : Route :=
  ⟨1 <<< defaultChannel, defaultDestId⟩

/-- The comparisons of `router`. -/
def routerBranches : List Branch :=
  [⟨0x10000, 0x20000, ⟨0b000100000, 9⟩⟩,
   ⟨0x20800, 0x21000, ⟨0b000010000, 0⟩⟩,
   ⟨0x21000, 0x21040, ⟨0b000001000, 11⟩⟩,
   ⟨0x21040, 0x21060, ⟨0b000000010, 2⟩⟩,
   ⟨0x21060, 0x21080, ⟨0b100000000, 13⟩⟩,
   ⟨0x21080, 0x21090, ⟨0b010000000, 5⟩⟩,
   ⟨0x21090, 0x210a0, ⟨0b000000100, 7⟩⟩,
   ⟨0x210a0, 0x210a8, ⟨0b001000000, 8⟩⟩,
   ⟨0x210a8, 0x210b0, ⟨0b000000001, 3⟩⟩]

/-- `router`. -/
def router : BitVec 18 → Route := decode routerBranches (defaultDecode 5 9)

/-- The comparisons of `router_001`. -/
def router001Branches : List Branch :=
  [⟨0x10000, 0x20000, ⟨0b010000000, 10⟩⟩,
   ⟨0x20800, 0x21000, ⟨0b001000000, 1⟩⟩,
   ⟨0x21000, 0x21040, ⟨0b000100000, 12⟩⟩,
   ⟨0x21040, 0x21060, ⟨0b000000001, 2⟩⟩,
   ⟨0x21060, 0x21080, ⟨0b100000000, 14⟩⟩,
   ⟨0x21080, 0x21090, ⟨0b000000100, 5⟩⟩,
   ⟨0x21090, 0x210a0, ⟨0b000010000, 6⟩⟩,
   ⟨0x210a0, 0x210a8, ⟨0b000000010, 8⟩⟩,
   ⟨0x210a8, 0x210b0, ⟨0b000001000, 4⟩⟩]

/-- `router_001`. -/
def router001 : BitVec 18 → Route := decode router001Branches (defaultDecode 7 10)

/-! ## The memory map -/

/-- The processors. -/
inductive Processor
  | cpu0
  | cpu1
  deriving DecidableEq, Repr

/-- What the data master of a processor is connected to. -/
inductive Component
  | onchipMemory
  | debugMemSlave
  | perfCount
  | interruptCounter
  | timer
  | leds
  | mailbox
  | mutex
  | jtagUart
  deriving DecidableEq, Repr

namespace Component

/-- All components, in the order of the memory map. -/
def all : List Component :=
  [onchipMemory, debugMemSlave, perfCount, interruptCounter, timer, leds, mailbox, mutex, jtagUart]

/-- `start` in the memory map, the same for both processors. -/
def start : Component → BitVec 18
  | onchipMemory => 0x10000
  | debugMemSlave => 0x20800
  | perfCount => 0x21000
  | interruptCounter => 0x21040
  | timer => 0x21060
  | leds => 0x21080
  | mailbox => 0x21090
  | mutex => 0x210A0
  | jtagUart => 0x210A8

/-- `end` in the memory map. -/
def stop : Component → BitVec 18
  | onchipMemory => 0x20000
  | debugMemSlave => 0x21000
  | perfCount => 0x21040
  | interruptCounter => 0x21060
  | timer => 0x21080
  | leds => 0x21090
  | mailbox => 0x210A0
  | mutex => 0x210A8
  | jtagUart => 0x210B0

/-- The range of the component holds the address. -/
def Holds (k : Component) (a : BitVec 18) : Prop :=
  k.start.toNat ≤ a.toNat ∧ a.toNat < k.stop.toNat

instance (k : Component) (a : BitVec 18) : Decidable (k.Holds a) :=
  inferInstanceAs (Decidable (_ ∧ _))

/-- Both processors are connected to the component by the same interface. -/
def Shared (k : Component) : Prop := k = interruptCounter ∨ k = leds ∨ k = mutex

instance (k : Component) : Decidable k.Shared := inferInstanceAs (Decidable (_ ∨ _ ∨ _))

end Component

/-- The component that an address belongs to: the addresses outside all ranges are left to the
memory, which is the default of both routers. -/
def component (a : BitVec 18) : Component :=
  (Component.all.find? fun k => k.Holds a).getD .onchipMemory

namespace Processor

/-- The router of the processor. -/
def router : Processor → BitVec 18 → Route
  | cpu0 => Interconnect.router
  | cpu1 => router001

/-- The output of the command demultiplexer behind which the component is. -/
def wayOut : Processor → Component → Fin 9
  | cpu0, .jtagUart => 0
  | cpu0, .interruptCounter => 1
  | cpu0, .mailbox => 2
  | cpu0, .perfCount => 3
  | cpu0, .debugMemSlave => 4
  | cpu0, .onchipMemory => 5
  | cpu0, .mutex => 6
  | cpu0, .leds => 7
  | cpu0, .timer => 8
  | cpu1, .interruptCounter => 0
  | cpu1, .mutex => 1
  | cpu1, .leds => 2
  | cpu1, .jtagUart => 3
  | cpu1, .mailbox => 4
  | cpu1, .perfCount => 5
  | cpu1, .debugMemSlave => 6
  | cpu1, .onchipMemory => 7
  | cpu1, .timer => 8

/-- The command multiplexer that an output of the command demultiplexer is connected to; each
component has one. -/
def cmdMux : Processor → Fin 9 → Fin 15
  | cpu0 => ![0, 1, 2, 3, 4, 5, 6, 7, 8]
  | cpu1 => ![1, 6, 7, 9, 10, 11, 12, 13, 14]

/-- The number of the component as a destination. -/
def destination : Processor → Component → BitVec 4
  | cpu0, .onchipMemory => 9
  | cpu0, .debugMemSlave => 0
  | cpu0, .perfCount => 11
  | cpu0, .timer => 13
  | cpu0, .mailbox => 7
  | cpu0, .jtagUart => 3
  | cpu1, .onchipMemory => 10
  | cpu1, .debugMemSlave => 1
  | cpu1, .perfCount => 12
  | cpu1, .timer => 14
  | cpu1, .mailbox => 6
  | cpu1, .jtagUart => 4
  | _, .interruptCounter => 2
  | _, .leds => 5
  | _, .mutex => 8

/-- A command with the address goes to the command multiplexer `m`. -/
def Selects (c : Processor) (a : BitVec 18) (m : Fin 15) : Prop :=
  ∃ i : Fin 9, (c.router a).srcChannel.getLsbD i = true ∧ c.cmdMux i = m

/-- The comparisons of the router. -/
def branches : Processor → List Branch
  | cpu0 => routerBranches
  | cpu1 => router001Branches

/-- The comparison for a component. -/
def branch (c : Processor) (k : Component) : Branch :=
  ⟨k.start, k.stop, ⟨BitVec.twoPow 15 (c.wayOut k), c.destination k⟩⟩

end Processor

/-! ## The ranges -/

section Ranges

variable {k k' : Component} {a b : BitVec 18} {c : Processor}

lemma Component.mem_all (k : Component) : k ∈ all := by cases k <;> decide

/-- The ranges follow one another. -/
lemma Component.disjoint : ∀ k ∈ all, ∀ k' ∈ all,
    k = k' ∨ k.stop.toNat ≤ k'.start.toNat ∨ k'.stop.toNat ≤ k.start.toNat := by
  decide

/-- No address is in two ranges. -/
lemma Component.Holds.eq (h : k.Holds a) (h' : k'.Holds a) : k = k' := by
  obtain ⟨hlow, hhigh⟩ := h
  obtain ⟨hlow', hhigh'⟩ := h'
  rcases disjoint k k.mem_all k' k'.mem_all with heq | hle | hle
  · exact heq
  · omega
  · omega

/-- An address in the range of a component belongs to it. -/
lemma Component.Holds.component_eq (h : k.Holds a) : component a = k := by
  unfold component
  cases hfind : Component.all.find? fun k => decide (k.Holds a) with
  | none => exact absurd h (by simpa using List.find?_eq_none.mp hfind k k.mem_all)
  | some k' =>
    have hk' : decide (k'.Holds a) = true :=
      List.find?_some (p := fun k : Component => decide (k.Holds a)) hfind
    exact (of_decide_eq_true hk').eq h

/-- An address outside all ranges belongs to the memory. -/
lemma component_of_not (h : ∀ k : Component, ¬ k.Holds a) : component a = .onchipMemory := by
  have hfind : Component.all.find? (fun k => decide (k.Holds a)) = none :=
    List.find?_eq_none.mpr fun k _ => by simpa using h k
  rw [component, hfind, Option.getD_none]

/-- The addresses that belong to a component other than the memory are those in its range. -/
lemma component_eq_iff (hk : k ≠ .onchipMemory) : component a = k ↔ k.Holds a := by
  refine ⟨fun h => ?_, fun h => h.component_eq⟩
  by_cases hex : ∃ k' : Component, k'.Holds a
  · obtain ⟨k', hk'⟩ := hex
    rwa [← h, hk'.component_eq]
  · exact absurd (component_of_not (not_exists.mp hex)) (h ▸ hk)

end Ranges

/-! ## The routers follow the memory map -/

section Routes

variable {a : BitVec 18}

/-- The last comparison that holds decides, or the default if there is none. -/
lemma decode_eq {l : List Branch} {d r : Route} (h : ∀ b ∈ l, b.matches a = true → b.route = r)
    (hex : (∃ b ∈ l, b.matches a = true) ∨ d = r) : decode l d a = r := by
  induction l generalizing d with
  | nil => simpa [decode] using hex
  | cons b l ih =>
    rw [decode, List.foldl_cons, ← decode]
    refine ih (fun b' hb' => h b' (List.mem_cons_of_mem b hb')) ?_
    rcases hex with ⟨b', hb', hmatch⟩ | rfl
    · rcases List.mem_cons.mp hb' with rfl | hb'
      · exact .inr (by rw [if_pos hmatch, h b' (List.mem_cons_self ..) hmatch])
      · exact .inl ⟨b', hb', hmatch⟩
    · split_ifs with hmatch
      · exact .inr (h b (List.mem_cons_self ..) hmatch)
      · exact .inr rfl

namespace Processor

variable (c : Processor)

/-- The comparisons are those for the components. -/
lemma branches_eq : c.branches = Component.all.map c.branch := by cases c <;> decide

/-- The default is the route to the memory. -/
lemma router_eq_decode : c.router a = decode c.branches (c.branch .onchipMemory).route a := by
  cases c <;> rfl

/-- The ranges are as long as the numbers of bits that are cleared, and begin at multiples of their
lengths. -/
lemma aligned (k : Component) :
    2 ^ (c.branch k).pad = k.stop.toNat - k.start.toNat ∧ k.start.toNat ≤ k.stop.toNat ∧
      2 ^ (c.branch k).pad ∣ k.start.toNat := by
  cases c <;> cases k <;> decide

/-- The comparison for a component holds for the addresses in its range. -/
lemma matches_iff (k : Component) : (c.branch k).matches a = true ↔ k.Holds a := by
  obtain ⟨hlength, hle, hdvd⟩ := c.aligned k
  rw [Branch.matches, beq_iff_eq]
  refine (clearLow_eq_iff hdvd).trans ?_
  have hstop : k.start.toNat + 2 ^ (c.branch k).pad = k.stop.toNat := by
    rw [hlength, Nat.add_sub_cancel' hle]
  exact and_congr_right fun _ => hstop ▸ Iff.rfl

/-- The route of an address is that to the component that it belongs to. -/
theorem router_eq : c.router a = (c.branch (component a)).route := by
  rw [router_eq_decode, branches_eq]
  refine decode_eq (fun b hb hmatch => ?_) ?_
  · obtain ⟨k, -, rfl⟩ := List.mem_map.mp hb
    rw [((c.matches_iff k).mp hmatch).component_eq]
  · by_cases hex : ∃ k : Component, k.Holds a
    · obtain ⟨k, hk⟩ := hex
      exact .inl ⟨_, List.mem_map_of_mem k.mem_all, (c.matches_iff k).mpr hk⟩
    · exact .inr (by rw [component_of_not (not_exists.mp hex)])

/-- The channel of an address is the bit of the way out to its component. -/
lemma srcChannel_eq : (c.router a).srcChannel = BitVec.twoPow 15 (c.wayOut (component a)) :=
  congrArg Route.srcChannel c.router_eq

/-- The destination of an address is the number of its component. -/
lemma destId_eq : (c.router a).destId = c.destination (component a) :=
  congrArg Route.destId c.router_eq

/-- Different components have different ways out. -/
lemma wayOut_inj {k k' : Component} : c.wayOut k = c.wayOut k' ↔ k = k' := by
  cases c <;> cases k <;> cases k' <;> decide

/-- Different components are different destinations. -/
lemma destination_inj {k k' : Component} : c.destination k = c.destination k' ↔ k = k' := by
  cases c <;> cases k <;> cases k' <;> decide

/-- The channel of an address has the bit of the way out to its component, and no other. -/
lemma getLsbD_srcChannel (i : Fin 9) :
    (c.router a).srcChannel.getLsbD i = decide (i = c.wayOut (component a)) := by
  have hi : (c.wayOut (component a)).val < 15 := lt_trans (Fin.isLt _) (by decide)
  rw [srcChannel_eq, BitVec.getLsbD_twoPow, decide_eq_true hi, Bool.true_and, Bool.eq_iff_iff,
    decide_eq_true_eq, decide_eq_true_eq, Fin.ext_iff]
  exact eq_comm

/-- A command goes to the command multiplexer of the component that its address belongs to. -/
lemma selects_iff {m : Fin 15} : c.Selects a m ↔ c.cmdMux (c.wayOut (component a)) = m := by
  constructor
  · rintro ⟨i, hi, rfl⟩
    rw [getLsbD_srcChannel, decide_eq_true_eq] at hi
    rw [hi]
  · rintro rfl
    exact ⟨_, by rw [getLsbD_srcChannel, decide_eq_true rfl], rfl⟩

/-- The processors are connected to the same command multiplexer where they share the component. -/
lemma cmdMux_eq_iff (k k' : Component) :
    cpu0.cmdMux (cpu0.wayOut k) = cpu1.cmdMux (cpu1.wayOut k') ↔ k = k' ∧ k.Shared := by
  cases k <;> cases k' <;> decide

/-- The processors have the same destination where they share the component. -/
lemma destination_eq_iff (k k' : Component) :
    cpu0.destination k = cpu1.destination k' ↔ k = k' ∧ k.Shared := by
  cases k <;> cases k' <;> decide

end Processor

/-- Two addresses belong to the same shared component if they are in the range of one. -/
lemma shared_iff (a b : BitVec 18) :
    component a = component b ∧ (component a).Shared ↔
      ∃ k : Component, k.Shared ∧ k.Holds a ∧ k.Holds b := by
  constructor
  · rintro ⟨heq, hshared⟩
    have hne : component a ≠ .onchipMemory := by
      intro hmem
      rw [hmem] at hshared
      exact absurd hshared (by decide)
    exact ⟨_, hshared, (component_eq_iff hne).mp rfl, (component_eq_iff hne).mp heq.symm⟩
  · rintro ⟨k, hshared, ha, hb⟩
    rw [ha.component_eq, hb.component_eq]
    exact ⟨rfl, hshared⟩

/-- The processors reach a component in common with the addresses of the interrupt counter, the LEDs
and the mutex, and with no others: neither gets to what belongs to the other one. -/
theorem meet_iff (a b : BitVec 18) :
    ((∃ m, Processor.cpu0.Selects a m ∧ Processor.cpu1.Selects b m) ↔
      ∃ k : Component, k.Shared ∧ k.Holds a ∧ k.Holds b) ∧
    ((router a).destId = (router001 b).destId ↔
      ∃ k : Component, k.Shared ∧ k.Holds a ∧ k.Holds b) := by
  rw [← shared_iff, ← Processor.cmdMux_eq_iff]
  constructor
  · simp only [Processor.selects_iff, exists_eq_left']
    exact eq_comm
  · have ha : (router a).destId = _ := Processor.cpu0.destId_eq
    have hb : (router001 b).destId = _ := Processor.cpu1.destId_eq
    rw [ha, hb, Processor.cmdMux_eq_iff, Processor.destination_eq_iff]

end Routes

end CyclonRtes.Interconnect
