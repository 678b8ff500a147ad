import MgComm.Library.Monitor
import MgComm.Dci.LogCodes

/-!
# The hardware class and its software simulation

`DCI` overrides `_handle_log` without the test on `_log_codes`, because the
device itself emits only packets whose code is enabled.  An emitted packet is in
flight for a while, and the codes may be configured in between.

Both classes are run over the same registrations, configuration calls,
emissions and deliveries.  The simulation delivers a part of what the hardware
class delivers, and the same if and only if no packet is handed to a handler
after its code was removed (`hardware_eq_software_iff`).  The device state
enters through the mirror property of `LogCodes`: what is emitted is active.
-/

namespace MgComm
namespace Dci

universe u v

open StreamMachine Monitor

section Link

variable {H : Type u} {δ : Type v} (device : LogDevice δ)

/-- `void DCI::_handle_log(unsigned char *ptr, int len)`: the handler calls it
makes. -/
def DCI.handleLog (dci : DCIBase H) (p : Packet) : List (Invocation H) :=
  callHandlers dci.logHandlers p

/-- The object with its device, and the packets which the device has emitted
and the object has not been given yet. -/
structure LinkState (H : Type u) (δ : Type v) where
  host : DCIBase H × δ
  inFlight : List Packet

/-- What happens on either side of the link. -/
inductive LinkEvent (H : Type u) where
  | addLogHandler (c : H)
  | config (call : ConfigCall)
  | emit (p : Packet)
  | deliver

/-- The link after an event. -/
def linkNext (st : LinkState H δ) : LinkEvent H → LinkState H δ
  | .addLogHandler c => { st with host := (st.host.1.addLogHandler c, st.host.2) }
  | .config call =>
      { st with host := (configCall device.configure st.host call).2 }
  | .emit p => { st with inFlight := st.inFlight ++ [p] }
  | .deliver => { st with inFlight := st.inFlight.tail }

/-- The handler calls an event causes, for a given `_handle_log`. -/
def linkCalls (handleLog : DCIBase H → Packet → List (Invocation H))
    (st : LinkState H δ) : LinkEvent H → List (Invocation H)
  | .deliver =>
      match st.inFlight with
      | p :: _ => handleLog st.host.1 p
      | [] => []
  | _ => []

/-- The events considered: configuration calls that return 0, emissions of
enabled codes, and deliveries of emitted packets. -/
def CanHappen (st : LinkState H δ) : LinkEvent H → Prop
  | .addLogHandler _ => True
  | .config call => (configCall device.configure st.host call).1 = 0
  | .emit p => p.logCode ∈ device.enabled st.host.2
  | .deliver => st.inFlight ≠ []

instance (st : LinkState H δ) (e : LinkEvent H) :
    Decidable (CanHappen device st e) :=
  match e with
  | .addLogHandler _ => inferInstanceAs (Decidable True)
  | .config call =>
      inferInstanceAs (Decidable ((configCall device.configure st.host call).1 = 0))
  | .emit p =>
      inferInstanceAs (Decidable (p.logCode ∈ device.enabled st.host.2))
  | .deliver => inferInstanceAs (Decidable (st.inFlight ≠ []))

/-- A delivery to registered handlers is of a packet whose code is still
active. -/
def DeliversActive (st : LinkState H δ) : LinkEvent H → Prop
  | .deliver =>
      st.host.1.logHandlers ≠ [] →
        ∀ p ∈ st.inFlight.head?, p.logCode ∈ st.host.1.logCodes
  | _ => True

/-- A configuration call leaves the codes of all packets in flight active. -/
def KeepsInFlight (st : LinkState H δ) : LinkEvent H → Prop
  | .config call =>
      ∀ p ∈ st.inFlight,
        p.logCode ∈ (configCall device.configure st.host call).2.1.logCodes
  | _ => True

instance (st : LinkState H δ) (e : LinkEvent H) :
    Decidable (KeepsInFlight device st e) :=
  match e with
  | .config call =>
      inferInstanceAs (Decidable (∀ p ∈ st.inFlight,
        p.logCode ∈ (configCall device.configure st.host call).2.1.logCodes))
  | .addLogHandler _ | .emit _ | .deliver => inferInstanceAs (Decidable True)

/-- A new object and a device with no code enabled. -/
def linkStart (H : Type u) (d : δ) : LinkState H δ :=
  ⟨(DCIBase.fresh H, d), []⟩

/-- All handler calls of a run. -/
def linkRun (handleLog : DCIBase H → Packet → List (Invocation H))
    (st : LinkState H δ) (events : List (LinkEvent H)) : List (Invocation H) :=
  (run (emitting (linkNext device) (linkCalls handleLog)) st events).2

/-- The simulation calls all handlers or none. -/
theorem linkCalls_sublist (st : LinkState H δ) (e : LinkEvent H) :
    (linkCalls DCIBase.handleLog st e).Sublist (linkCalls DCI.handleLog st e) := by
  cases e with
  | deliver =>
      unfold linkCalls
      cases st.inFlight with
      | nil => exact List.Sublist.refl []
      | cons p ps =>
          simp only [DCIBase.handleLog, DCI.handleLog]
          split
          · exact List.Sublist.refl _
          · exact List.nil_sublist _
  | addLogHandler c => exact List.Sublist.refl []
  | config call => exact List.Sublist.refl []
  | emit p => exact List.Sublist.refl []

/-- One event tells the classes apart unless it delivers an active code. -/
theorem linkCalls_eq_iff (st : LinkState H δ) (e : LinkEvent H) :
    linkCalls DCI.handleLog st e = linkCalls DCIBase.handleLog st e ↔
      DeliversActive st e := by
  cases e with
  | deliver =>
      unfold linkCalls DeliversActive
      cases st.inFlight with
      | nil => simp
      | cons p ps =>
          by_cases hActive : p.logCode ∈ st.host.1.logCodes
          · simp [DCIBase.handleLog, DCI.handleLog, hActive]
          · simp [DCIBase.handleLog, DCI.handleLog, hActive, callHandlers]
  | addLogHandler c => simp [linkCalls, DeliversActive]
  | config call => simp [linkCalls, DeliversActive]
  | emit p => simp [linkCalls, DeliversActive]

/-- The object mirrors the device, and the packets in flight have active
codes. -/
def InFlightActive (st : LinkState H δ) : Prop :=
  Mirrors device st.host ∧ ∀ p ∈ st.inFlight, p.logCode ∈ st.host.1.logCodes

/-- Step lemma: what is emitted is active, and stays so while no call takes the
code of a packet in flight away. -/
theorem linkNext_inFlightActive (st : LinkState H δ) (e : LinkEvent H)
    (h : InFlightActive device st)
    (hEvent : CanHappen device st e ∧ KeepsInFlight device st e) :
    DeliversActive st e ∧ InFlightActive device (linkNext device st e) := by
  obtain ⟨hMirrors, hActive⟩ := h
  obtain ⟨hHappens, hKeeps⟩ := hEvent
  cases e with
  | addLogHandler c => exact ⟨trivial, hMirrors, hActive⟩
  | config call => exact ⟨trivial, configCall_mirrors device hMirrors call, hKeeps⟩
  | emit p =>
      -- The device emits what it has enabled, which is what is active.
      refine ⟨trivial, hMirrors, fun q hMem => ?_⟩
      rcases List.mem_append.mp hMem with hOld | hNew
      · exact hActive q hOld
      · obtain rfl := List.mem_singleton.mp hNew
        rw [linkNext, hMirrors.2]
        exact hHappens
  | deliver =>
      refine ⟨fun _ p hHead => ?_, hMirrors, fun q hMem => ?_⟩
      · exact hActive p (List.mem_of_mem_head? hHead)
      · exact hActive q (List.mem_of_mem_tail hMem)

/-- On every run, the handler calls of the two classes are the same exactly if
each packet delivered to a registered handler still has an active code; so they
are if no configuration call takes away the code of a packet in flight. -/
theorem hardware_eq_software_iff (d : δ) (hNone : device.enabled d = ∅)
    (events : List (LinkEvent H))
    (hRun : Accepts (linkNext device) (CanHappen device) (linkStart H d) events) :
    (linkRun device DCI.handleLog (linkStart H d) events =
          linkRun device DCIBase.handleLog (linkStart H d) events ↔
        Accepts (linkNext device) DeliversActive (linkStart H d) events) ∧
      (Accepts (linkNext device) (KeepsInFlight device) (linkStart H d) events →
        linkRun device DCI.handleLog (linkStart H d) events =
          linkRun device DCIBase.handleLog (linkStart H d) events) := by
  have hIff : linkRun device DCI.handleLog (linkStart H d) events =
        linkRun device DCIBase.handleLog (linkStart H d) events ↔
      Accepts (linkNext device) DeliversActive (linkStart H d) events := by
    unfold linkRun
    rw [run_emitting_eq_iff (linkNext device) (linkCalls DCI.handleLog)
      (linkCalls DCIBase.handleLog) linkCalls_sublist]
    simp only [linkCalls_eq_iff]
  refine ⟨hIff, fun hKeeps => hIff.mpr ?_⟩
  have hStart : InFlightActive device (linkStart H d) :=
    ⟨⟨rfl, hNone.symm⟩, by simp [linkStart]⟩
  exact accepts_mono (linkNext device) _ (linkNext_inFlightActive device) hStart
    (accepts_and (linkNext device) _ hRun hKeeps)

end Link

/-- A packet of log code 1. -/
def packetOne : Packet := ⟨fun addr => if addr = 2 then 1 else 0, 0, 12⟩

theorem hardware_eq_software_one :
    linkRun scriptedDevice DCI.handleLog (linkStart Unit ([], ∅))
        [.addLogHandler (), .config (.add {1}), .emit packetOne, .deliver] =
      linkRun scriptedDevice DCIBase.handleLog (linkStart Unit ([], ∅))
        [.addLogHandler (), .config (.add {1}), .emit packetOne, .deliver] :=
  (hardware_eq_software_iff scriptedDevice ([], ∅) rfl
    [.addLogHandler (), .config (.add {1}), .emit packetOne, .deliver]
    (by decide)).2 (by decide)

/-- A packet is emitted, its code is removed, and then it is delivered: only
the hardware class calls the handler. -/
theorem hardware_delivers_removed_code :
    Accepts (linkNext scriptedDevice) (CanHappen scriptedDevice)
        (linkStart Unit ([], ∅))
        [.addLogHandler (), .config (.add {1}), .emit packetOne, .config .reset,
          .deliver] ∧
      linkRun scriptedDevice DCI.handleLog (linkStart Unit ([], ∅))
          [.addLogHandler (), .config (.add {1}), .emit packetOne,
            .config .reset, .deliver] ≠
        linkRun scriptedDevice DCIBase.handleLog (linkStart Unit ([], ∅))
          [.addLogHandler (), .config (.add {1}), .emit packetOne,
            .config .reset, .deliver] :=
  ⟨by decide, by decide⟩

end Dci
end MgComm
