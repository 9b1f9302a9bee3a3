import Smurf.Library.Runs
import Smurf.Server.PcieCard

/-! Servers that share the PCIe card.
Each server enters its `with` block when it is started and leaves it in the end, in any order
with the others. The links open are those of servers that nobody displaced, and none that
point to the carrier of a server are open twice.
-/

namespace Smurf

open Runs

/-- A server enters or leaves the block of its card. -/
inductive CardEvent
  | enter (card : PcieCard)
  | exit (card : PcieCard)

namespace CardEvent

def step (lane : EthLane) : CardEvent → EthLane
  | .enter card => card.enter lane
  | .exit card => card.exit lane

/-- Opens the link to the carrier. -/
def Opens (i : Fin 6) (ip : String) : CardEvent → Prop
  | .enter card =>
      card.pciePresent = true ∧ card.usePcie = true ∧ card.link = i ∧ card.ipAddr = ip
  | .exit _ => False

/-- Closes the link if it points to the carrier, or points it elsewhere. A server that does not
use the card closes the links to its carrier too.
-/
def Closes (i : Fin 6) (ip : String) : CardEvent → Prop
  | .enter card =>
      card.pciePresent = true ∧ (card.ipAddr = ip ∨ card.usePcie = true ∧ card.link = i)
  | .exit card => card.pciePresent = true ∧ card.usePcie = true ∧ card.link = i

end CardEvent

-----------------------------------------------------------------------------------------
-- One link
-----------------------------------------------------------------------------------------

/-- The registers of a link with its bypass bit. -/
def EthLane.view (lane : EthLane) (i : Fin 6) : RssiLink × Bool :=
  (lane.link i, lane.bypRssi.testBit i)

namespace PcieCard

section View

variable (card : PcieCard) (lane : EthLane) (i : Fin 6)

theorem view_configure_self (opening : Bool)
    : (card.configure lane opening i).view i
      = (card.configured opening (lane.link i), !opening) := by
  rw [EthLane.view, link_configure, Function.update_self, testBit_configure, if_pos rfl]

theorem view_configure_of_ne (opening : Bool) {link : Fin 6} (other : link ≠ i)
    : (card.configure lane opening link).view i = lane.view i := by
  rw [EthLane.view, link_configure, Function.update_of_ne (Ne.symm other), testBit_configure,
    if_neg (fun same => other (Fin.ext same))]
  rfl

/-- Opening sets every register of a link, so it does not matter whether the loop closed it.
-/
theorem view_enter
    : (card.enter lane).view i
      = if card.pciePresent = true ∧ card.usePcie = true ∧ card.link = i then
          (card.configured true (lane.link i), false)
        else if card.pciePresent = true ∧ card.PointedTo lane i then
          (card.configured false (lane.link i), true)
        else lane.view i := by
  cases present : card.pciePresent with
  | false => simp [enter, openRssi, closeAllRssi, present]
  | true =>
      have closed : (card.closeAllRssi lane).view i = _ := closeAllRssi_link present lane i
      cases used : card.usePcie with
      | false => simpa [enter, openRssi, present, used, EthLane.view] using closed
      | true =>
          rw [enter, openRssi_eq present used]
          by_cases own : card.link = i
          · rw [if_pos ⟨rfl, rfl, own⟩, own, view_configure_self]
            rfl
          · rw [if_neg (fun all => own all.2.2), view_configure_of_ne card _ i true own, closed]
            simp [EthLane.view]

theorem view_exit
    : (card.exit lane).view i
      = if card.pciePresent = true ∧ card.usePcie = true ∧ card.link = i then
          (card.configured false (lane.link i), true)
        else lane.view i := by
  rw [exit, closeRssi]
  split
  case isTrue uses =>
    obtain ⟨present, used⟩ := Bool.and_eq_true_iff.mp uses
    by_cases own : card.link = i
    · rw [if_pos ⟨present, used, own⟩, own]
      exact view_configure_self card lane i false
    · rw [if_neg (fun all => own all.2.2)]
      exact view_configure_of_ne card lane i false own
  case isFalse unused =>
    rw [if_neg (fun all => unused (Bool.and_eq_true_iff.mpr ⟨all.1, all.2.1⟩))]

end View

end PcieCard

-----------------------------------------------------------------------------------------
-- What holds while a link is open
-----------------------------------------------------------------------------------------

/-- A property of a link that it has when it is opened to the carrier, and only while it is open
and points to it.
-/
structure WhileOpenTo (ip : String) (Q : RssiLink × Bool → Prop) : Prop where
  opened : ∀ (card : PcieCard) client, card.ipAddr = ip → Q (card.configured true client, false)
  bypass : ∀ view, Q view → view.2 = false
  points : ∀ view, Q view → view.1.clientRemoteIp = ip

namespace WhileOpenTo

variable {ip : String} {Q : RssiLink × Bool → Prop}

/-- Each event sets and resets such a property. -/
theorem step (while_ : WhileOpenTo ip Q) (i : Fin 6) (lane : EthLane) (event : CardEvent)
    : Q ((event.step lane).view i) ↔ event.Opens i ip ∨ Q (lane.view i) ∧ ¬ event.Closes i ip := by
  cases event with
  | enter card =>
      rw [CardEvent.step, PcieCard.view_enter]
      split
      case isTrue uses =>
        obtain ⟨present, used, own⟩ := uses
        have same : Q (card.configured true (lane.link i), false) ↔ card.ipAddr = ip :=
          ⟨fun holds => while_.points _ holds, while_.opened card _⟩
        rw [same]
        simp [CardEvent.Opens, CardEvent.Closes, present, used, own]
      case isFalse other =>
        have opens : ¬ (CardEvent.enter card).Opens i ip :=
          fun opens => other ⟨opens.1, opens.2.1, opens.2.2.1⟩
        rw [or_iff_right opens]
        split
        case isTrue pointed =>
          refine iff_of_false (fun holds => ?_) (fun held => held.2 ⟨pointed.1, .inl ?_⟩)
          · exact absurd (while_.bypass _ holds) (by simp)
          · exact pointed.2.symm.trans (while_.points _ held.1)
        case isFalse apart =>
          refine (and_iff_left_of_imp (fun holds closes => ?_)).symm
          rcases closes.2 with same | uses
          · exact apart ⟨closes.1, (while_.points _ holds).trans same.symm⟩
          · exact other ⟨closes.1, uses⟩
  | exit card =>
      rw [CardEvent.step, PcieCard.view_exit, CardEvent.Opens, false_or]
      split
      case isTrue uses =>
        refine iff_of_false (fun holds => ?_) (fun held => held.2 uses)
        exact absurd (while_.bypass _ holds) (by simp)
      case isFalse other => exact (and_iff_left other).symm

end WhileOpenTo

/-- The link is open and points to the carrier. -/
def EthLane.Reaches (lane : EthLane) (ip : String) (i : Fin 6) : Prop :=
  lane.bypRssi.testBit i = false ∧ (lane.link i).clientRemoteIp = ip

theorem whileOpenTo_reaches (ip : String)
    : WhileOpenTo ip (fun view => view.2 = false ∧ view.1.clientRemoteIp = ip) where
  opened _ _ same := ⟨rfl, same⟩
  bypass _ holds := holds.1
  points _ holds := holds.2

theorem whileOpenTo_opened (ip : String)
    : WhileOpenTo ip
        (fun view =>
          view.2 = false ∧ view.1.clientRemoteIp = ip ∧ view.1.clientRemotePort = 8198
            ∧ view.1.openConn = 1 ∧ view.1.closeConn = 0) where
  opened _ _ same := ⟨rfl, same, rfl, rfl, rfl⟩
  bypass _ holds := holds.1
  points _ holds := holds.2.1

theorem PcieCard.opened_iff_view (card : PcieCard) (lane : EthLane) (i : Fin 6)
    : card.Opened lane i
      ↔ (lane.view i).2 = false ∧ (lane.view i).1.clientRemoteIp = card.ipAddr
          ∧ (lane.view i).1.clientRemotePort = 8198 ∧ (lane.view i).1.openConn = 1
          ∧ (lane.view i).1.closeConn = 0 :=
  ⟨fun opened => ⟨opened.bypass, opened.ip, opened.port, opened.openConn, opened.closeConn⟩,
    fun ⟨bypass, ip, port, openConn, closeConn⟩ => ⟨bypass, ip, port, openConn, closeConn⟩⟩

-----------------------------------------------------------------------------------------
-- One link a carrier
-----------------------------------------------------------------------------------------

/-- At most one link to the carrier is open. -/
def EthLane.OneLink (ip : String) (lane : EthLane) : Prop :=
  ∀ i j, lane.Reaches ip i → lane.Reaches ip j → i = j

namespace EthLane.OneLink

variable {ip : String} {lane : EthLane}

/-- No event opens a second link: one that opens a link closes the others to its carrier. -/
theorem step (one : lane.OneLink ip) (event : CardEvent) : (event.step lane).OneLink ip := by
  have latch := (whileOpenTo_reaches ip).step
  have exclusive {i j : Fin 6} (opens : event.Opens i ip) (kept : ¬ event.Closes j ip) : False := by
    cases event with
    | enter card => exact kept ⟨opens.1, .inl opens.2.2.2⟩
    | exit card => exact opens
  have same {i j : Fin 6} (left : event.Opens i ip) (right : event.Opens j ip) : i = j := by
    cases event with
    | enter card => exact left.2.2.1.symm.trans right.2.2.1
    | exit card => exact left.elim
  intro i j left right
  rcases (latch i lane event).mp left with opensLeft | ⟨heldLeft, keptLeft⟩
  · rcases (latch j lane event).mp right with opensRight | ⟨-, keptRight⟩
    · exact same opensLeft opensRight
    · exact (exclusive opensLeft keptRight).elim
  · rcases (latch j lane event).mp right with opensRight | ⟨heldRight, -⟩
    · exact (exclusive opensRight keptLeft).elim
    · exact one i j heldLeft heldRight

/-- Entering leaves at most one link to the carrier open, whatever was open before. -/
theorem of_enter {card : PcieCard} (present : card.pciePresent = true) (lane : EthLane)
    : (card.enter lane).OneLink card.ipAddr := by
  have latch := (whileOpenTo_reaches card.ipAddr).step
  have opens (i : Fin 6) (reaches : (card.enter lane).Reaches card.ipAddr i)
      : (CardEvent.enter card).Opens i card.ipAddr :=
    ((latch i lane (.enter card)).mp reaches).resolve_right
      (fun held => held.2 ⟨present, .inl rfl⟩)
  exact fun i j left right => (opens i left).2.2.1.symm.trans (opens j right).2.2.1

end EthLane.OneLink

namespace PcieCard

/-- In every order in which servers enter and leave their blocks, whatever the registers hold at
first: a link is open to a carrier exactly when a server opened it and no later event closed it
or pointed it elsewhere, or it was so at first and no event did; and at most one link to the
carrier of a server that entered is open.
-/
theorem opened_run (lane : EthLane) (events : List CardEvent)
    : let after := events.foldl CardEvent.step lane
      (∀ (card : PcieCard) (i : Fin 6),
        card.Opened after i
        ↔ (∃ before event later,
            events = before ++ event :: later ∧ event.Opens i card.ipAddr
              ∧ ∀ other ∈ later, ¬ other.Closes i card.ipAddr)
          ∨ card.Opened lane i ∧ ∀ other ∈ events, ¬ other.Closes i card.ipAddr)
      ∧ ∀ card,
          .enter card ∈ events
          → card.pciePresent = true
          → after.OneLink card.ipAddr := by
  refine ⟨fun card i => ?_, fun card member present => ?_⟩
  · rw [opened_iff_view, opened_iff_view]
    exact latched_iff (P := fun lane : EthLane =>
        (lane.view i).2 = false ∧ (lane.view i).1.clientRemoteIp = card.ipAddr
          ∧ (lane.view i).1.clientRemotePort = 8198 ∧ (lane.view i).1.openConn = 1
          ∧ (lane.view i).1.closeConn = 0)
      (fun lane event => (whileOpenTo_opened card.ipAddr).step i lane event) lane events
  · obtain ⟨before, later, rfl⟩ := List.append_of_mem member
    rw [List.foldl_append, List.foldl_cons]
    exact (EachState.of_invariant (I := fun lane : EthLane => lane.OneLink card.ipAddr)
      (.of_enter present _) (fun _ event one => one.step event) later).final

/-- A second server for a carrier takes the link over, and keeps it when the first one leaves.
-/
theorem opened_run_two_servers (lane : EthLane)
    : let first : PcieCard := ⟨true, true, 0, "10.0.1.102"⟩
      let second : PcieCard := ⟨true, true, 3, "10.0.1.102"⟩
      let after :=
        [CardEvent.enter first, .enter second, .exit first].foldl CardEvent.step lane
      second.Opened after 3 ∧ ¬ after.Reaches "10.0.1.102" 0 := by
  intro first second after
  obtain ⟨opened, one⟩ := opened_run lane [.enter first, .enter second, .exit first]
  have taken : second.Opened after 3 := by
    refine (opened second 3).mpr
      (.inl ⟨[.enter first], .enter second, [.exit first], rfl, ⟨rfl, rfl, rfl, rfl⟩, ?_⟩)
    intro other member closes
    obtain rfl := List.mem_singleton.mp member
    exact absurd closes.2.2 (by decide)
  refine ⟨taken, fun reaches => ?_⟩
  exact absurd (one second (by simp) rfl 0 3 reaches ⟨taken.bypass, taken.ip⟩) (by decide)

end PcieCard

end Smurf
