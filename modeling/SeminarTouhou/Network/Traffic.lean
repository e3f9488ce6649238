import SeminarTouhou.Library.Totals
import SeminarTouhou.Network.World

namespace SeminarTouhou

open Library

def HostAction.readsOf (q : Packet → Bool) : HostAction → ℕ
  | .receive _ p => if q p then 1 else 0
  | _ => 0

namespace World

/-- How many of the packets that `q` picks a step of the host sends to `c`. -/
def sentTo (c : Connection) (q : Packet → Bool) (w : World) : WorldAction → ℕ
  | .host a => (HostSession.act a w.host.handler).sent.countP (fun e => e.1 = c ∧ q e.2)
  | _ => 0

def readAt (c : Connection) (q : Packet → Bool) (_ : World) : WorldAction → ℕ
  | .client d (.receive p) => if d = c ∧ q p then 1 else 0
  | _ => 0

def sentUp (q : Packet → Bool) (w : World) : WorldAction → ℕ
  | .client c a => (ClientSession.act a (w.clients c).handler).sent.countP q
  | _ => 0

def readUp (q : Packet → Bool) (_ : World) : WorldAction → ℕ
  | .host a => a.readsOf q
  | _ => 0

section Flows

variable {w : World} {q : Packet → Bool} {as : List WorldAction}

theorem toClient_flow (c : Connection) (q : Packet → Bool) {a : WorldAction} (he : w.Enabled a) :
    (w.next a).toClient.countP (fun e => e.1 = c ∧ q e.2) + w.readAt c q a ≤
      w.toClient.countP (fun e => e.1 = c ∧ q e.2) + w.sentTo c q a := by
  cases a with
  | host a => exact (List.countP_append ..).le
  | loseToServer e => exact le_refl _
  | loseToClient e =>
    have hsub : (w.toClient.erase e).countP (fun e => e.1 = c ∧ q e.2) ≤
        w.toClient.countP (fun e => e.1 = c ∧ q e.2) := List.Sublist.countP_le List.erase_sublist
    exact hsub
  | client d a =>
    cases a with
    | receive p =>
      have hmem : (d, p) ∈ w.toClient := he.2.2
      simp only [next, clientStep, toClientAfter, readAt, sentTo, Nat.add_zero, List.countP_erase,
        hmem, true_and, decide_eq_true_eq]
      split_ifs with hread
      · have hpos : 0 < w.toClient.countP (fun e => e.1 = c ∧ q e.2) :=
          List.countP_pos_iff.mpr ⟨(d, p), hmem, by simpa using hread⟩
        omega
      · omega
    | _ => exact le_refl _

theorem toServer_flow (q : Packet → Bool) {a : WorldAction} (he : w.Enabled a) :
    (w.next a).toServer.countP (fun e => q e.2) + w.readUp q a ≤
      w.toServer.countP (fun e => q e.2) + w.sentUp q a := by
  cases a with
  | client c a =>
    simp only [next, clientStep, readUp, sentUp, List.countP_append, List.countP_map]
    exact le_refl _
  | loseToClient e => exact le_refl _
  | loseToServer e =>
    have hsub : (w.toServer.erase e).countP (fun e => q e.2) ≤ w.toServer.countP (fun e => q e.2) :=
      List.Sublist.countP_le List.erase_sublist
    exact hsub
  | host a =>
    cases a with
    | receive c p =>
      have hmem : (c, p) ∈ w.toServer := he.2
      simp only [next, hostStep, toServerAfter, readUp, HostAction.readsOf, sentUp, Nat.add_zero,
        List.countP_erase, hmem, true_and]
      split_ifs with hread
      · have hpos : 0 < w.toServer.countP (fun e => q e.2) :=
          List.countP_pos_iff.mpr ⟨(c, p), hmem, hread⟩
        omega
      · omega
    | _ => exact le_refl _

theorem total_readAt (c : Connection) (q : Packet → Bool) (hl : system.Legal start as) :
    system.total (readAt c q) start as ≤ system.total (sentTo c q) start as := by
  have hflow := System.total_flow (I := fun _ => True)
    (fun w : World => w.toClient.countP (fun e => e.1 = c ∧ q e.2)) (fun _ _ _ _ => trivial)
    (fun w a _ he => toClient_flow c q he) trivial hl
  have hnone : start.toClient.countP (fun e => e.1 = c ∧ q e.2) = 0 := rfl
  omega

theorem total_readUp (q : Packet → Bool) (hl : system.Legal start as) :
    system.total (readUp q) start as ≤ system.total (sentUp q) start as := by
  have hflow := System.total_flow (I := fun _ => True) (fun w : World => w.toServer.countP (fun e => q e.2))
    (fun _ _ _ _ => trivial) (fun w a _ he => toServer_flow q he) trivial hl
  have hnone : start.toServer.countP (fun e => q e.2) = 0 := rfl
  omega

end Flows

end World

end SeminarTouhou
