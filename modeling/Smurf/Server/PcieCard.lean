import Mathlib.Data.Int.Bitwise
import Smurf.Library.LocalLoops

/-! The RSSI links of the PCIe card.
A register returns the value it was last set to. Of the six links, those that point to the
carrier are closed before one of them is opened, and that one is closed in the end.
-/

namespace Smurf

open LocalLoops

/-- The registers of a link: those of its UDP client, and of its RSSI client. -/
structure RssiLink where
  clientRemoteIp : String
  clientRemotePort : Int
  closeConn : Int
  openConn : Int
  headerChksumEn : Int

/-- The mask of links that bypass RSSI, and the links. -/
structure EthLane where
  bypRssi : Int
  link : Fin 6 → RssiLink

/-- Sets registers of one link. -/
def EthLane.setLink (self : EthLane) (i : Fin 6) (set : RssiLink → RssiLink) : EthLane :=
  { self with link := Function.update self.link i (set (self.link i)) }

structure PcieCard where
  pciePresent : Bool
  usePcie : Bool
  link : Fin 6
  ipAddr : String

namespace PcieCard

/-- `1 << link` -/
def linkBit (link : Fin 6) : Int :=
  Int.ofNat (1 <<< link.val)

/-- Opens or closes a link. It bypasses RSSI while its client is set up. -/
def configure (self : PcieCard) (lane : EthLane) (opening : Bool) (link : Fin 6) : EthLane :=
  let mask := lane.bypRssi
  let dis := mask.lor (linkBit link)
  let lane := { lane with bypRssi := dis }
  let (mask, lane) :=
    if opening then
      (mask.land (linkBit link).lnot,
        lane.setLink link fun client =>
          { client with clientRemoteIp := self.ipAddr, clientRemotePort := 8198 })
    else
      (mask.lor (linkBit link),
        lane.setLink link fun client => { client with clientRemotePort := 8192 })
  let lane := { lane with bypRssi := mask }
  let lane := lane.setLink link fun client => { client with closeConn := (!opening).toInt }
  let lane := lane.setLink link fun client => { client with openConn := opening.toInt }
  lane.setLink link fun client => { client with headerChksumEn := 1 }

def openRssi (self : PcieCard) (lane : EthLane) : EthLane :=
  if self.pciePresent && self.usePcie then self.configure lane true self.link else lane

def closeRssi (self : PcieCard) (lane : EthLane) : EthLane :=
  if self.pciePresent && self.usePcie then self.configure lane false self.link else lane

/-- The body of the loop over all links. -/
def closePointing (self : PcieCard) (lane : EthLane) (i : Fin 6) : EthLane :=
  if self.ipAddr = (lane.link i).clientRemoteIp then self.configure lane false i else lane

def closeAllRssi (self : PcieCard) (lane : EthLane) : EthLane :=
  if self.pciePresent then (List.finRange 6).foldl self.closePointing lane else lane

def enter (self : PcieCard) (lane : EthLane) : EthLane :=
  self.openRssi (self.closeAllRssi lane)

/-- Stopping the device behind this sets no register of the links. -/
def exit (self : PcieCard) (lane : EthLane) : EthLane :=
  self.closeRssi lane

-----------------------------------------------------------------------------------------
-- One link
-----------------------------------------------------------------------------------------

/-- A link's registers once it is opened or closed. -/
def configured (self : PcieCard) (opening : Bool) (client : RssiLink) : RssiLink where
  clientRemoteIp := if opening then self.ipAddr else client.clientRemoteIp
  clientRemotePort := if opening then 8198 else 8192
  closeConn := (!opening).toInt
  openConn := opening.toInt
  headerChksumEn := 1

theorem testBit_linkBit (link : Fin 6) (k : Nat)
    : (linkBit link).testBit k = decide (link.val = k) := by
  show (1 <<< link.val).testBit k = _
  rw [Nat.one_shiftLeft, Nat.testBit_two_pow]

section Configure

variable (self : PcieCard) (lane : EthLane) (opening : Bool) (link : Fin 6)

theorem link_configure
    : (self.configure lane opening link).link
      = Function.update lane.link link (self.configured opening (lane.link link)) := by
  cases opening <;> simp [configure, configured, EthLane.setLink]

/-- The bypass bit of a link is set while it is closed. -/
theorem testBit_configure (k : Nat)
    : (self.configure lane opening link).bypRssi.testBit k
      = if link.val = k then !opening else lane.bypRssi.testBit k := by
  cases opening with
  | false =>
      show (lane.bypRssi.lor (linkBit link)).testBit k = _
      rw [Int.testBit_lor, testBit_linkBit]
      by_cases here : link.val = k <;> simp [here]
  | true =>
      show (lane.bypRssi.land (linkBit link).lnot).testBit k = _
      rw [Int.testBit_land, Int.testBit_lnot, testBit_linkBit]
      by_cases here : link.val = k <;> simp [here]

end Configure

-----------------------------------------------------------------------------------------
-- All links
-----------------------------------------------------------------------------------------

/-- The link is one of those that point to the card's carrier. -/
def PointedTo (self : PcieCard) (lane : EthLane) (i : Fin 6) : Prop :=
  (lane.link i).clientRemoteIp = self.ipAddr

instance (self : PcieCard) (lane : EthLane) (i : Fin 6) : Decidable (self.PointedTo lane i) :=
  inferInstanceAs (Decidable (_ = _))

section CloseAll

variable {self : PcieCard} (present : self.pciePresent = true) (lane : EthLane)
include present

/-- The loop closes the links that point to the carrier: its body reads and sets the registers and
the bit of its own link only.
-/
theorem closeAllRssi_link (i : Fin 6)
    : ((self.closeAllRssi lane).link i, (self.closeAllRssi lane).bypRssi.testBit i)
      = if self.PointedTo lane i then (self.configured false (lane.link i), true)
        else (lane.link i, lane.bypRssi.testBit i) := by
  rw [closeAllRssi, if_pos present]
  refine @foldl_own _ _ _ (fun lane : EthLane => (lane.link i, lane.bypRssi.testBit i))
    self.closePointing i
    (fun part =>
      if part.1.clientRemoteIp = self.ipAddr then (self.configured false part.1, true) else part)
    (fun j other lane => ?_) (fun lane => ?_) _ (List.nodup_finRange 6) (List.mem_finRange i) lane
  · rw [closePointing]
    split
    · rw [link_configure, Function.update_of_ne (Ne.symm other), testBit_configure,
        if_neg (fun same => other (Fin.ext same))]
    · rfl
  · rw [closePointing]
    simp only [eq_comm]
    split
    · rw [link_configure, Function.update_self, testBit_configure, if_pos rfl, Bool.not_false]
    · rfl

/-- Bits that are no link's are kept. -/
theorem closeAllRssi_bit {k : Nat} (beyond : 6 ≤ k)
    : (self.closeAllRssi lane).bypRssi.testBit k = lane.bypRssi.testBit k := by
  rw [closeAllRssi, if_pos present]
  refine @foldl_kept _ _ _ (fun lane : EthLane => lane.bypRssi.testBit k) self.closePointing _
    (fun j _ lane => ?_) lane
  rw [closePointing]
  split
  · rw [testBit_configure, if_neg (fun same => by omega)]
  · rfl

end CloseAll

/-- An open link to the carrier. -/
structure Opened (card : PcieCard) (lane : EthLane) (i : Fin 6) : Prop where
  bypass : lane.bypRssi.testBit i = false
  ip : (lane.link i).clientRemoteIp = card.ipAddr
  port : (lane.link i).clientRemotePort = 8198
  openConn : (lane.link i).openConn = 1
  closeConn : (lane.link i).closeConn = 0

/-- A closed link, wherever it points. -/
structure Closed (lane : EthLane) (i : Fin 6) : Prop where
  bypass : lane.bypRssi.testBit i = true
  port : (lane.link i).clientRemotePort = 8192
  openConn : (lane.link i).openConn = 0
  closeConn : (lane.link i).closeConn = 1

/-- The links that neither are the card's nor point to its carrier are as they were, and so are
all bits of the mask that are none of the others'.
-/
structure LeavesOthers (card : PcieCard) (before after : EthLane) : Prop where
  link : ∀ i, i ≠ card.link → ¬ card.PointedTo before i → after.link i = before.link i
  mask
    : ∀ k : Nat,
        (∀ i : Fin 6, i.val = k → i ≠ card.link ∧ ¬ card.PointedTo before i)
        → after.bypRssi.testBit k = before.bypRssi.testBit k

section Enter

variable {self : PcieCard} (present : self.pciePresent = true) (used : self.usePcie = true)
  (lane : EthLane)
include present used

theorem openRssi_eq : self.openRssi lane = self.configure lane true self.link := by
  rw [openRssi, present, used]
  rfl

theorem closeRssi_eq : self.closeRssi lane = self.configure lane false self.link := by
  rw [closeRssi, present, used]
  rfl

theorem opened_enter : self.Opened (self.enter lane) self.link := by
  rw [enter, openRssi_eq present used]
  constructor
  · rw [testBit_configure, if_pos rfl]
    rfl
  all_goals
    rw [link_configure, Function.update_self]
    rfl

/-- A link other than the card's is as the loop leaves it. -/
theorem enter_other {i : Fin 6} (other : i ≠ self.link)
    : ((self.enter lane).link i, (self.enter lane).bypRssi.testBit i)
      = if self.PointedTo lane i then (self.configured false (lane.link i), true)
        else (lane.link i, lane.bypRssi.testBit i) := by
  rw [enter, openRssi_eq present used, link_configure, Function.update_of_ne other,
    testBit_configure, if_neg (fun same => other (Fin.ext same.symm)), closeAllRssi_link present]

theorem closed_enter {i : Fin 6} (other : i ≠ self.link) (points : self.PointedTo lane i)
    : Closed (self.enter lane) i := by
  have left := enter_other present used lane other
  rw [if_pos points, Prod.mk.injEq] at left
  obtain ⟨link, bypass⟩ := left
  constructor
  · exact bypass
  all_goals
    rw [link]
    rfl

theorem leavesOthers_enter : self.LeavesOthers lane (self.enter lane) := by
  have kept {i : Fin 6} (other : i ≠ self.link) (apart : ¬ self.PointedTo lane i) :=
    Prod.mk.inj ((enter_other present used lane other).trans (if_neg apart))
  constructor
  · exact fun i other apart => (kept other apart).1
  · intro k free
    by_cases inside : k < 6
    · obtain ⟨other, apart⟩ := free ⟨k, inside⟩ rfl
      exact (kept other apart).2
    · have apart : self.link.val ≠ k := by omega
      rw [enter, openRssi_eq present used, testBit_configure, if_neg apart,
        closeAllRssi_bit present lane (Nat.le_of_not_lt inside)]

theorem closed_exit : Closed (self.exit lane) self.link := by
  rw [exit, closeRssi_eq present used]
  constructor
  · rw [testBit_configure, if_pos rfl]
    rfl
  all_goals
    rw [link_configure, Function.update_self]
    rfl

theorem exit_link {i : Fin 6} (other : i ≠ self.link)
    : (self.exit lane).link i = lane.link i := by
  rw [exit, closeRssi_eq present used, link_configure, Function.update_of_ne other]

theorem exit_bit {k : Nat} (other : self.link.val ≠ k)
    : (self.exit lane).bypRssi.testBit k = lane.bypRssi.testBit k := by
  rw [exit, closeRssi_eq present used, testBit_configure, if_neg other]

/-- Leaving closes one link, and keeps what is closed. -/
theorem Closed.exit {lane : EthLane} {i : Fin 6} (closed : Closed lane i)
    : Closed (self.exit lane) i := by
  by_cases own : i = self.link
  · rw [own]
    exact closed_exit present used lane
  · have link := exit_link present used lane own
    have bit := exit_bit present used lane (fun same => own (Fin.ext same.symm))
    exact ⟨bit.trans closed.bypass, by rw [link, closed.port], by rw [link, closed.openConn],
      by rw [link, closed.closeConn]⟩

end Enter

/-- With the card present and used, whatever the registers hold: entering opens the card's link,
closes the others that point to its carrier, and leaves the rest; leaving closes the card's
link too, so that none that points to the carrier is open.
-/
theorem enter_exit (self : PcieCard) (present : self.pciePresent = true)
    (used : self.usePcie = true) (lane : EthLane)
    : (self.Opened (self.enter lane) self.link
        ∧ (∀ i, i ≠ self.link → self.PointedTo lane i → Closed (self.enter lane) i)
        ∧ self.LeavesOthers lane (self.enter lane))
      ∧ (∀ i,
          self.PointedTo (self.exit (self.enter lane)) i
          → Closed (self.exit (self.enter lane)) i)
      ∧ self.LeavesOthers lane (self.exit (self.enter lane)) := by
  have others := leavesOthers_enter present used lane
  refine ⟨⟨opened_enter present used lane, fun i => closed_enter present used lane, others⟩,
    fun i points => ?_, ?_⟩
  · by_cases own : i = self.link
    · rw [own]
      exact closed_exit present used _
    · have link := exit_link present used (self.enter lane) own
      have pointed : self.PointedTo lane i := by
        by_contra apart
        rw [PointedTo, link, others.link i own apart] at points
        exact apart points
      exact (closed_enter present used lane own pointed).exit present used
  · constructor
    · exact fun i own apart =>
        (exit_link present used _ own).trans (others.link i own apart)
    · intro k free
      have own : self.link.val ≠ k := fun same => (free self.link same).1 rfl
      exact (exit_bit present used _ own).trans (others.mask k free)

/-- Link 2 is opened to a carrier that links 2 and 4 point to. -/
theorem enter_exit_two_links
    : let lane : EthLane :=
        {
          bypRssi := 0b100001
          link i := ⟨if i = 2 ∨ i = 4 then "10.0.1.102" else "10.0.1.103", 8198, 0, 1, 1⟩
        }
      let card : PcieCard := ⟨true, true, 2, "10.0.1.102"⟩
      (card.enter lane).bypRssi.testBit 2 = false
      ∧ (card.enter lane).bypRssi.testBit 4 = true
      ∧ ((card.enter lane).link 3).openConn = 1
      ∧ (card.exit (card.enter lane)).bypRssi.testBit 2 = true := by
  intro lane card
  obtain ⟨⟨opened, closed, others⟩, left, _⟩ := enter_exit card rfl rfl lane
  refine ⟨opened.bypass, (closed 4 (by decide) (by decide)).bypass, ?_, (left 2 rfl).bypass⟩
  rw [others.link 3 (by decide) (by decide)]

end PcieCard

end Smurf
