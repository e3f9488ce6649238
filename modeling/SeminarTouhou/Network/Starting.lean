import SeminarTouhou.Network.ClientHandler
import SeminarTouhou.Network.EndOfGame

namespace SeminarTouhou

open Library

/-- The entry of the node's own player holds its object, and all the others hold holograms. -/
structure PlayerTable.Started (t : PlayerTable) (playerID : UInt32) : Prop where
  own : t.status playerID = some (some (.player, .alive))
  others : ∀ k ∈ t, k ≠ playerID → t.status k = some (some (.hologram, .alive))

namespace HostSession

open ServerHandler

def LoadsLevel : HostAction → Bool
  | .levelLoaded _ => true
  | _ => false

/-- The button is pressed `n` times, and the level is loaded as often. -/
structure Triggers (n : ℕ) (as : List HostAction) : Prop where
  only : ∀ a ∈ as, a = .startGame ∨ LoadsLevel a = true
  presses : as.count .startGame = n
  loads : as.countP LoadsLevel = n

/-- No call throws, and the players are those of one trigger. -/
def StartsAsOnce (h : HostSession) (as : List HostAction) : Prop :=
  (∀ position k, k ∈ (system.run h as).handler.mPlayers ↔
    k ∈ (system.run h [.startGame, .levelLoaded position]).handler.mPlayers) ∧
  PlayerTable.Started (system.run h as).handler.mPlayers serverPlayerID ∧
  system.Meets (fun h a => (act a h.handler).thrown = none) h as

variable {h : HostSession} {as : List HostAction}

theorem handleRegisterPlayer_throws {s : ServerHandler} (hs : s.server = true)
    (h0 : serverPlayerID ∈ s.mPlayers) (player : GameObject) :
    (s.handleRegisterPlayer player).thrown = some .argument := by
  simp [handleRegisterPlayer, hs, h0]

theorem handleRegisterPlayer_started {s : ServerHandler} (hs : s.server = true)
    (h0 : serverPlayerID ∉ s.mPlayers) (position : Vector3) :
    (s.handleRegisterPlayer ⟨.player, position, .alive⟩).thrown = none ∧
      PlayerTable.Started (s.handleRegisterPlayer ⟨.player, position, .alive⟩).state.mPlayers
        serverPlayerID := by
  obtain ⟨t, ht, -, hkeys, hholograms⟩ :=
    handleRegisterPlayer_state s hs ⟨.player, position, .alive⟩
  refine ⟨by simp [handleRegisterPlayer, hs, h0], ?_, ?_⟩
  · simp [handleRegisterPlayer, hs, h0, PlayerTable.status, PlayerGameData.status,
      PlayerGameData.init]
  · intro k hk hne
    rw [ht] at hk ⊢
    exact hholograms k (((hkeys k).mp hk).resolve_left hne) hne

theorem only_tail {a : HostAction} (ht : ∀ b ∈ a :: as, b = .startGame ∨ LoadsLevel b = true) :
    ∀ b ∈ as, b = .startGame ∨ LoadsLevel b = true :=
  fun b hb => ht b (List.mem_cons_of_mem a hb)

theorem run_presses (ht : ∀ a ∈ as, a = .startGame ∨ LoadsLevel a = true)
    (hn : as.countP LoadsLevel = 0) : (system.run h as).handler = h.handler ∧
      system.Meets (fun h a => (act a h.handler).thrown = none) h as := by
  induction as generalizing h with
  | nil => exact ⟨rfl, System.meets_nil _ _ _⟩
  | cons a as ih =>
    rcases ht a List.mem_cons_self with rfl | ha
    · obtain ⟨hrun, hthrown⟩ := ih (h := h.next .startGame) (only_tail ht) hn
      exact ⟨hrun, (System.meets_cons _ _ _ _ _).mpr ⟨rfl, hthrown⟩⟩
    · rw [List.countP_cons_of_pos ha] at hn
      omega

theorem run_oneLoad (hs : h.handler.server = true) (h0 : serverPlayerID ∉ h.handler.mPlayers)
    (ht : ∀ a ∈ as, a = .startGame ∨ LoadsLevel a = true) (hn : as.countP LoadsLevel = 1) :
    (∃ position, (system.run h as).handler =
      (h.handler.handleRegisterPlayer ⟨.player, position, .alive⟩).state) ∧
      system.Meets (fun h a => (act a h.handler).thrown = none) h as := by
  induction as generalizing h with
  | nil => exact absurd hn Nat.zero_ne_one
  | cons a as ih =>
    rcases ht a List.mem_cons_self with rfl | ha
    · obtain ⟨hrun, hthrown⟩ := ih (h := h.next .startGame) hs h0 (only_tail ht) hn
      exact ⟨hrun, (System.meets_cons _ _ _ _ _).mpr ⟨rfl, hthrown⟩⟩
    · rw [List.countP_cons_of_pos ha] at hn
      cases a with
      | levelLoaded position =>
        obtain ⟨hrun, hthrown⟩ := run_presses (h := h.next (.levelLoaded position)) (only_tail ht)
          (by omega)
        refine ⟨⟨position, hrun⟩, (System.meets_cons _ _ _ _ _).mpr ⟨?_, hthrown⟩⟩
        exact (handleRegisterPlayer_started hs h0 position).1
      | _ => exact absurd ha Bool.false_ne_true

theorem loads_le (hs : h.handler.server = true)
    (ht : ∀ a ∈ as, a = .startGame ∨ LoadsLevel a = true)
    (hm : system.Meets (fun h a => (act a h.handler).thrown = none) h as) :
    as.countP LoadsLevel ≤ if serverPlayerID ∈ h.handler.mPlayers then 0 else 1 := by
  induction as generalizing h with
  | nil => exact Nat.zero_le _
  | cons a as ih =>
    obtain ⟨hthrown, hm⟩ := (System.meets_cons _ _ _ _ _).mp hm
    rcases ht a List.mem_cons_self with rfl | ha
    · exact ih (h := h.next .startGame) hs (only_tail ht) hm
    · rw [List.countP_cons_of_pos ha]
      cases a with
      | levelLoaded position =>
        have h0 : serverPlayerID ∉ h.handler.mPlayers := by
          intro h0
          have hthrows := handleRegisterPlayer_throws hs h0 ⟨.player, position, .alive⟩
          exact absurd (hthrown.symm.trans hthrows) (by simp)
        obtain ⟨t, ht', -, hkeys, -⟩ :=
          handleRegisterPlayer_state h.handler hs ⟨.player, position, .alive⟩
        have hnext : (h.next (.levelLoaded position)).handler =
            { h.handler with mGameState := .gameStarted, mPlayers := t } := ht'
        have hnone := ih (h := h.next (.levelLoaded position)) (by rw [hnext]; exact hs)
          (only_tail ht) hm
        rw [hnext, if_pos ((hkeys serverPlayerID).mpr (Or.inl rfl))] at hnone
        rw [if_neg h0]
        omega
      | _ => exact absurd ha Bool.false_ne_true

theorem startsAsOnce_iff {n : ℕ} (hn : 1 ≤ n) (hr : Roster h)
    (hg : h.handler.mGameState = .searchingForPlayers) (ht : Triggers n as) :
    h.StartsAsOnce as ↔ n = 1 := by
  have h0 : serverPlayerID ∉ h.handler.mPlayers :=
    fun h0 => hr.nonzero ((hr.lobby hg).2.1 _ h0)
  constructor
  · rintro ⟨-, -, hm⟩
    have hle := loads_le hr.server ht.only hm
    rw [if_neg h0, ht.loads] at hle
    omega
  · rintro rfl
    obtain ⟨⟨position, hrun⟩, hm⟩ := run_oneLoad hr.server h0 ht.only ht.loads
    have hkeys (player : GameObject) (k : UInt32) :
        k ∈ (h.handler.handleRegisterPlayer player).state.mPlayers ↔
          k = serverPlayerID ∨ k ∈ h.handler.mPlayers := by
      obtain ⟨t, ht, -, hkeys, -⟩ := handleRegisterPlayer_state h.handler hr.server player
      rw [ht]
      exact hkeys k
    refine ⟨?_, ?_, hm⟩
    · intro other k
      rw [hrun, hkeys]
      exact (hkeys ⟨.player, other, .alive⟩ k).symm
    · rw [hrun]
      exact (handleRegisterPlayer_started hr.server h0 position).2

end HostSession

namespace ClientSession

open ClientHandler

def system : System ClientSession ClientAction := ⟨Enabled, next⟩

instance (s : ClientSession) (a : ClientAction) : Decidable (system.enabled s a) :=
  inferInstanceAs (Decidable (s.Enabled a))

def ReadsStart : ClientAction → Bool
  | .receive (.gameState ⟨_, .startGame⟩) => true
  | _ => false

def LoadsLevel : ClientAction → Bool
  | .loadScene scene _ => scene = 4
  | _ => false

structure Triggers (n : ℕ) (as : List ClientAction) : Prop where
  only : ∀ a ∈ as, ReadsStart a = true ∨ LoadsLevel a = true
  starts : as.countP ReadsStart = n
  loads : as.countP LoadsLevel = n

def StartsAsOnce (s : ClientSession) (as : List ClientAction) : Prop :=
  (∀ room position k, k ∈ (system.run s as).handler.mPlayers ↔ k ∈ (system.run s
    [.receive (.gameState ⟨room, .startGame⟩), .loadScene 4 position]).handler.mPlayers) ∧
  PlayerTable.Started (system.run s as).handler.mPlayers
    (system.run s as).handler.connectionIDOnServer ∧
  system.Meets (fun s a => (act a s.handler).thrown = none) s as

variable {s : ClientSession} {as : List ClientAction}

theorem act_start {a : ClientAction} (ha : ReadsStart a = true) (s : ClientHandler) :
    act a s = .raises s [.sceneTransition 4] := by
  cases a with
  | receive p =>
    cases p with
    | gameState d =>
      obtain ⟨room, e⟩ := d
      cases e with
      | startGame => rfl
      | gameFinished => exact absurd ha Bool.false_ne_true
    | _ => exact absurd ha Bool.false_ne_true
  | _ => exact absurd ha Bool.false_ne_true

theorem act_load {a : ClientAction} (ha : LoadsLevel a = true) (s : ClientHandler) :
    (act a s).thrown = none ∧
      (act a s).state.connectionIDOnServer = s.connectionIDOnServer ∧
      (∀ k, k ∈ (act a s).state.mPlayers ↔ k = s.connectionIDOnServer ∨ k ∈ s.mPlayers) ∧
      PlayerTable.Started (act a s).state.mPlayers s.connectionIDOnServer := by
  obtain ⟨position, rfl⟩ : ∃ position, a = .loadScene 4 position := by
    cases a with
    | loadScene scene position =>
      have hscene : scene = 4 := of_decide_eq_true ha
      exact ⟨position, hscene ▸ rfl⟩
    | _ => exact absurd ha Bool.false_ne_true
  have hkeys : ∀ k, k ∈ (act (.loadScene 4 position) s).state.mPlayers ↔
      k = s.connectionIDOnServer ∨ k ∈ s.mPlayers := by
    intro k
    simp [act, ClientHandler.handleRegisterPlayer, ClientHandler.onObjects, PlayerTable.mem_onObjects]
  refine ⟨rfl, rfl, hkeys, PlayerTable.status_insert _ _ _, ?_⟩
  intro k hk hne
  have hold : k ∈ s.mPlayers := ((hkeys k).mp hk).resolve_left hne
  obtain ⟨p, hp⟩ := Dict.exists_lookup ((PlayerTable.mem_onObjects (f := .unload)).mpr hold)
  refine (PlayerTable.status_insert_ne hne _).trans ?_
  simp [PlayerTable.status, ClientHandler.onObjects, hp, hne]

theorem triggers_tail {a : ClientAction}
    (ht : ∀ b ∈ a :: as, ReadsStart b = true ∨ LoadsLevel b = true) :
    ∀ b ∈ as, ReadsStart b = true ∨ LoadsLevel b = true :=
  fun b hb => ht b (List.mem_cons_of_mem a hb)

theorem not_loads {a : ClientAction} (ha : ReadsStart a = true) : LoadsLevel a = false := by
  cases a with
  | loadScene scene position => exact absurd ha Bool.false_ne_true
  | _ => rfl

theorem run_triggers (ht : ∀ a ∈ as, ReadsStart a = true ∨ LoadsLevel a = true) :
    system.Meets (fun s a => (act a s.handler).thrown = none) s as ∧
      (system.run s as).handler.connectionIDOnServer = s.handler.connectionIDOnServer ∧
      (as.countP LoadsLevel = 0 ∧ (system.run s as).handler = s.handler ∨
        (∀ k, k ∈ (system.run s as).handler.mPlayers ↔
          k = s.handler.connectionIDOnServer ∨ k ∈ s.handler.mPlayers) ∧
        PlayerTable.Started (system.run s as).handler.mPlayers s.handler.connectionIDOnServer) := by
  induction as generalizing s with
  | nil => exact ⟨System.meets_nil _ _ _, rfl, Or.inl ⟨rfl, rfl⟩⟩
  | cons a as ih =>
    obtain ⟨hm, hid, hrun⟩ := ih (s := s.next a) (triggers_tail ht)
    rw [System.meets_cons, System.run_cons]
    rcases ht a List.mem_cons_self with ha | ha
    · have hnext : (s.next a).handler = s.handler := by
        rw [next_handler, act_start ha]
        rfl
      have hcount : (a :: as).countP LoadsLevel = as.countP LoadsLevel :=
        List.countP_cons_of_neg (by rw [not_loads ha]; exact Bool.false_ne_true)
      rw [hnext] at hid hrun
      rw [hcount]
      exact ⟨⟨by rw [act_start ha]; rfl, hm⟩, hid, hrun⟩
    · obtain ⟨hthrown, hsame, hkeys, hstarted⟩ := act_load ha s.handler
      rw [next_handler, hsame] at hid hrun
      refine ⟨⟨hthrown, hm⟩, hid, Or.inr ?_⟩
      rcases hrun with ⟨-, hrun⟩ | ⟨hrun, hlater⟩
      · have hlast : (system.run (system.next s a) as).handler = (act a s.handler).state := hrun
        rw [hlast]
        exact ⟨hkeys, hstarted⟩
      · refine ⟨fun k => (hrun k).trans ?_, hlater⟩
        rw [hkeys]
        exact ⟨fun h => h.elim Or.inl id, Or.inr⟩

theorem startsAsOnce {n : ℕ} (hn : 1 ≤ n) (ht : Triggers n as) : s.StartsAsOnce as := by
  obtain ⟨hm, hid, ⟨hnone, -⟩ | ⟨hkeys, hstarted⟩⟩ := run_triggers (s := s) ht.only
  · rw [ht.loads] at hnone
    omega
  · refine ⟨?_, hid ▸ hstarted, hm⟩
    intro room position k
    let once : List ClientAction :=
      [.receive (.gameState ⟨room, .startGame⟩), .loadScene 4 position]
    have honly : ∀ a ∈ once, ReadsStart a = true ∨ LoadsLevel a = true := by
      simp [once, ReadsStart, LoadsLevel]
    obtain ⟨-, -, ⟨hnone, -⟩ | ⟨honce, -⟩⟩ := run_triggers (s := s) honly
    · exact absurd hnone Nat.one_ne_zero
    · exact (hkeys k).trans (honce k).symm

end ClientSession

/-- A client can start as often as it likes, while the host cannot register its player twice. -/
theorem starting_idempotent_iff {n : ℕ} (hn : 1 ≤ n) {bs : List HostAction}
    (hb : HostSession.system.Legal .start bs)
    (hg : (HostSession.system.run .start bs).handler.mGameState = .searchingForPlayers)
    {as : List HostAction} (ha : HostSession.Triggers n as) (c : ClientSession)
    {cs : List ClientAction} (hc : ClientSession.Triggers n cs) :
    (HostSession.system.run .start bs).StartsAsOnce as ∧ c.StartsAsOnce cs ↔ n = 1 := by
  have hroster := System.invariant_legal (I := HostSession.Roster)
    (fun h a hr he => HostSession.keeps_roster hr he) HostSession.start_roster hb
  rw [and_iff_left (ClientSession.startsAsOnce hn hc)]
  exact HostSession.startsAsOnce_iff hn hroster hg ha

theorem starting_idempotent_onePress :
    let h := HostSession.system.run .start [.statusCallback .connected 1];
    h.StartsAsOnce [.startGame, .levelLoaded ⟨0, 0, 0⟩] ∧ ClientSession.start.StartsAsOnce
      [.receive (.gameState ⟨1, .startGame⟩), .loadScene 4 ⟨0, 0, 0⟩] ↔ 1 = 1 :=
  starting_idempotent_iff (le_refl 1) (by decide +kernel) (by decide +kernel)
    ⟨by decide, by decide, by decide⟩ .start ⟨by decide, by decide, by decide⟩

theorem twoPresses_throw : ¬ ∀ n bs as c cs, 1 ≤ n → HostSession.system.Legal .start bs →
    (HostSession.system.run .start bs).handler.mGameState = .searchingForPlayers →
    HostSession.system.Legal (HostSession.system.run .start bs) as → HostSession.Triggers n as →
    ClientSession.system.Legal c cs → ClientSession.Triggers n cs →
    (HostSession.system.run .start bs).StartsAsOnce as ∧ c.StartsAsOnce cs := by
  intro h
  let presses : List HostAction := [.startGame, .startGame, .levelLoaded ⟨0, 0, 0⟩]
  let start : ClientAction := .receive (.gameState ⟨1, .startGame⟩)
  let c : ClientSession := ⟨{ ClientHandler.joining with mGameState := .searchingForPlayers }, 3, [],
    ⟨[], []⟩⟩
  obtain ⟨⟨-, -, hm⟩, -⟩ := h 2 [.statusCallback .connected 1] (presses ++ [.levelLoaded ⟨0, 0, 0⟩]) c
    [start, start, .loadScene 4 ⟨0, 0, 0⟩, .loadScene 4 ⟨0, 0, 0⟩] (by decide) (by decide +kernel)
    (by decide +kernel) (by decide +kernel) ⟨by decide, by decide, by decide⟩ (by decide +kernel)
    ⟨by decide, by decide, by decide⟩
  exact absurd (HostSession.system.meets_concat hm) (by decide +kernel)

end SeminarTouhou
