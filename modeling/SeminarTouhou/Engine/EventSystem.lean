import SeminarTouhou.Library.Multicast
import SeminarTouhou.Library.System
import SeminarTouhou.Engine.GameObject

namespace SeminarTouhou

open Library

inductive GameEvent
  | onStartGame
  | onRegisterPlayer
  | onEndGameSession
  | dropEvent
  | ipReceived
  | onHealthUpdate
  | onPlayerDeath
  | numberOfJoinedPlayersChanged
  | onReceiveResult
  | onDefensiveBombAttack
  | onOffensiveBombAttack
  | onOffensiveBombUI
  | onFireOffensiveBomb
  | onEnemyHealthUpdate
  | onEnemyDeathUpdate
  | waveStateChange
  | onSendGameStart
  | onPickUpUpdate
  | onSendPlayerResultData
  | onPlayerDie
  | onPlayerWin
  | onTransitionBG
deriving DecidableEq

inductive Method
  | handleRegisterPlayer
  | handleSendPlayerResults
  | endSession
  | sendBombDataFromServer
  | handleBroadcastGameStart
  | handleGameStart
  | sendBombData
  | handlePlayerDies
  | handlePlayerWins
  | onPlayerCountChange
  | addIP
  | updateDrop
  | updateAttackUI
  | updateUI
  | updateDefensiveBomb
  | updateOffensiveBomb
  | translateEvent
  | insertResult
  | translateDropEvent
  | spawnOffensiveBomb
  | handleTransition
  | spawnDrops
  | changeWaveState
  | clearAndDisable
  | updateHealthUI
  | updateDeathUI
deriving DecidableEq

inductive Script
  | serverHandler
  | clientHandler
  | endStateHandler
  | playerCountDisplay
  | joinRoomUIHandler
  | scoreUI
  | attackUI
  | healthUI
  | bombUI
  | resultsDisplay
  | playerHealth
  | playerAttacks
  | backgroundManager
  | dropManager
  | waveManager
  | enemyUI
  | tempEnemy
deriving DecidableEq

namespace Script

def onEnable : Script → List (GameEvent × Method)
  | serverHandler =>
    [(.onRegisterPlayer, .handleRegisterPlayer), (.onSendPlayerResultData, .handleSendPlayerResults),
      (.onEndGameSession, .endSession), (.onFireOffensiveBomb, .sendBombDataFromServer),
      (.onSendGameStart, .handleBroadcastGameStart), (.onStartGame, .handleGameStart)]
  | clientHandler =>
    [(.onRegisterPlayer, .handleRegisterPlayer), (.onSendPlayerResultData, .handleSendPlayerResults),
      (.onEndGameSession, .endSession), (.onFireOffensiveBomb, .sendBombData)]
  | endStateHandler => [(.onPlayerDie, .handlePlayerDies), (.onPlayerWin, .handlePlayerWins)]
  | playerCountDisplay => [(.numberOfJoinedPlayersChanged, .onPlayerCountChange)]
  | joinRoomUIHandler => [(.ipReceived, .addIP)]
  | scoreUI => [(.onPickUpUpdate, .updateDrop)]
  | attackUI => [(.onPickUpUpdate, .updateAttackUI)]
  | healthUI => [(.onHealthUpdate, .updateUI)]
  | bombUI =>
    [(.onDefensiveBombAttack, .updateDefensiveBomb), (.onOffensiveBombUI, .updateOffensiveBomb),
      (.onPickUpUpdate, .translateEvent)]
  | resultsDisplay => [(.onReceiveResult, .insertResult)]
  | playerHealth => [(.onPickUpUpdate, .translateDropEvent)]
  | playerAttacks =>
    [(.onOffensiveBombAttack, .spawnOffensiveBomb), (.onPickUpUpdate, .translateEvent)]
  | backgroundManager => [(.onTransitionBG, .handleTransition)]
  | waveManager => [(.waveStateChange, .changeWaveState), (.onPlayerDeath, .clearAndDisable)]
  | dropManager | enemyUI | tempEnemy => []

/-- What `OnDisable` takes away: all that `OnEnable` added, but for the bombs of the server. -/
def onDisable : Script → List (GameEvent × Method)
  | serverHandler =>
    [(.onRegisterPlayer, .handleRegisterPlayer), (.onSendPlayerResultData, .handleSendPlayerResults),
      (.onEndGameSession, .endSession), (.onSendGameStart, .handleBroadcastGameStart),
      (.onStartGame, .handleGameStart)]
  | c => c.onEnable

/-- What `Awake` adds; `EnemyUI` only when it has found an enemy. -/
def awake : Script → Option ℕ → List (GameEvent × Method)
  | dropManager, _ => [(.dropEvent, .spawnDrops)]
  | enemyUI, some _ => [(.onEnemyHealthUpdate, .updateHealthUI), (.onEnemyDeathUpdate, .updateDeathUI)]
  | _, _ => []

/-- What `OnDestroy` takes away; `EnemyUI` only when its enemy is not `null`. -/
def onDestroy : Script → Option ℕ → List (GameEvent × Method)
  | dropManager, _ => [(.dropEvent, .spawnDrops)]
  | enemyUI, some _ => [(.onEnemyHealthUpdate, .updateHealthUI), (.onEnemyDeathUpdate, .updateDeathUI)]
  | _, _ => []

end Script

structure ScriptObject where
  script : Script
  awoken : Bool
  enabled : Bool
  life : Life
  enemyHealth : Option ℕ
deriving DecidableEq

/-- The scripts of a process, by number, and who listens to each event of `EventSystem`. -/
structure Scripts where
  listeners : Multicast GameEvent (ℕ × Method)
  objects : List ScriptObject

/-- `found` is the enemy that `FindObjectOfType` finds, `onDestroy` the end of a frame in which the
object was destroyed. -/
inductive ScriptAction
  | instantiate (script : Script)
  | activate (x : ℕ) (found : Option ℕ)
  | deactivate (x : ℕ)
  | destroy (x : ℕ)
  | onDestroy (x : ℕ)
deriving DecidableEq

namespace ScriptObject

def afterAwake (found : Option ℕ) (o : ScriptObject) : ScriptObject :=
  if o.awoken then o
  else { o with awoken := true, enemyHealth := if o.script = .enemyUI then found else none }

/-- The methods of the script that are meant to listen now. -/
def listens (o : ScriptObject) : List (GameEvent × Method) :=
  (if o.enabled then o.script.onEnable else []) ++
    if o.awoken && o.life ≠ .destroyed then o.script.awake o.enemyHealth else []

end ScriptObject

namespace Scripts

open Multicast

def start : Scripts := ⟨fun _ => [], []⟩

def isNull (s : Scripts) (x : ℕ) : Bool := (s.objects[x]?).all (·.life = .destroyed)

/-- `Awake`, when the object becomes active for the first time, and `OnEnable`. -/
def activate (x : ℕ) (found : Option ℕ) (s : Scripts) (o : ScriptObject) : Scripts where
  listeners := (s.listeners.addAll (own x (if o.awoken then [] else o.script.awake found))).addAll
    (own x o.script.onEnable)
  objects := s.objects.set x { o.afterAwake found with enabled := true }

def deactivate (x : ℕ) (s : Scripts) (o : ScriptObject) : Scripts where
  listeners := s.listeners.removeAll (own x o.script.onDisable)
  objects := s.objects.set x { o with enabled := false }

/-- `OnDisable`, if the object is enabled, and `OnDestroy`, if it was ever active. -/
def finish (x : ℕ) (s : Scripts) (o : ScriptObject) : Scripts where
  listeners := (s.listeners.removeAll (own x (if o.enabled then o.script.onDisable else []))).removeAll
    (own x (if o.awoken then o.script.onDestroy (o.enemyHealth.filter (!s.isNull ·)) else []))
  objects := s.objects.set x { o with enabled := false, life := .destroyed }

def next (s : Scripts) : ScriptAction → Scripts
  | .instantiate c => { s with objects := s.objects ++ [⟨c, false, false, .alive, none⟩] }
  | .activate x found => (s.objects[x]?).elim s (s.activate x found)
  | .deactivate x => (s.objects[x]?).elim s (s.deactivate x)
  | .destroy x =>
    { s with objects := s.objects.modify x (fun o => { o with life := o.life.destroy }) }
  | .onDestroy x => (s.objects[x]?).elim s (s.finish x)

def Enabled (s : Scripts) : ScriptAction → Prop
  | .activate x _ => ∃ o ∈ s.objects[x]?, o.enabled = false ∧ o.life ≠ .destroyed
  | .deactivate x => ∃ o ∈ s.objects[x]?, o.enabled = true ∧ o.life ≠ .destroyed
  | .onDestroy x => ∃ o ∈ s.objects[x]?, o.life = .dying
  | _ => True

instance (s : Scripts) (a : ScriptAction) : Decidable (s.Enabled a) := by
  cases a <;> dsimp only [Enabled] <;> infer_instance

def system : System Scripts ScriptAction := ⟨Enabled, next⟩

instance (s : Scripts) (a : ScriptAction) : Decidable (system.enabled s a) :=
  inferInstanceAs (Decidable (s.Enabled a))

def due (s : Scripts) (x : ℕ) : List (GameEvent × Method) :=
  (s.objects[x]?).elim [] ScriptObject.listens

/-- Every event calls the methods that are meant to listen to it, each once, and no others. -/
def Exact (s : Scripts) : Prop :=
  ∀ e x m, (s.listeners e).count (x, m) = if (e, m) ∈ s.due x then 1 else 0

/-- A server is disabled, or the display of an enemy is destroyed after the enemy. -/
def Leaks (s : Scripts) : ScriptAction → Prop
  | .deactivate x => ∃ o ∈ s.objects[x]?, o.script = .serverHandler
  | .onDestroy x => ∃ o ∈ s.objects[x]?, o.script = .serverHandler ∧ o.enabled = true ∨
    o.script = .enemyUI ∧ o.awoken = true ∧ ∃ y ∈ o.enemyHealth, s.isNull y = true
  | _ => False

instance (s : Scripts) (a : ScriptAction) : Decidable (s.Leaks a) := by
  cases a <;> dsimp only [Leaks] <;> infer_instance

end Scripts

namespace Script

theorem nodup_onEnable (c : Script) : c.onEnable.Nodup := by
  cases c <;> decide

theorem nodup_awake (c : Script) (found : Option ℕ) : (c.awake found).Nodup := by
  cases found with
  | none => cases c <;> decide
  | some y =>
    have hany : c.awake (some y) = c.awake (some 0) := by cases c <;> rfl
    rw [hany]
    cases c <;> decide

theorem awake_eq_nil (c : Script) (found : Option ℕ) : c.onEnable = [] ∨ c.awake found = [] := by
  cases c <;> simp [onEnable, awake]

theorem onDestroy_eq (c : Script) (enemy : Option ℕ) : c.onDestroy enemy = c.awake enemy := by
  cases c <;> cases enemy <;> rfl

theorem onDisable_eq {c : Script} (h : c ≠ serverHandler) : c.onDisable = c.onEnable := by
  cases c <;> first | rfl | exact absurd rfl h

end Script

theorem ScriptObject.nodup_listens (o : ScriptObject) : o.listens.Nodup := by
  rw [listens]
  split_ifs with henabled hawoken
  · rcases o.script.awake_eq_nil o.enemyHealth with h | h
    · rw [h]
      exact o.script.nodup_awake _
    · rw [h, List.append_nil]
      exact o.script.nodup_onEnable
  · rw [List.append_nil]
    exact o.script.nodup_onEnable
  · exact o.script.nodup_awake _
  · exact List.nodup_nil

namespace Scripts

open Multicast

variable {s : Scripts}

theorem exact_iff_count :
    s.Exact ↔ ∀ e x m, (s.listeners e).count (x, m) = (s.due x).count (e, m) := by
  have hdue (x : ℕ) : (s.due x).Nodup := by
    unfold due
    cases s.objects[x]? with
    | none => exact List.nodup_nil
    | some o => exact o.nodup_listens
  have hone (e : GameEvent) (x : ℕ) (m : Method) :
      (s.due x).count (e, m) = if (e, m) ∈ s.due x then 1 else 0 := (hdue x).count
  simp only [Exact, hone]

section Steps

theorem due_set {x y : ℕ} {o p : ScriptObject} {l : Multicast GameEvent (ℕ × Method)}
    (hx : s.objects[x]? = some o) :
    due ⟨l, s.objects.set x p⟩ y = if y = x then p.listens else s.due y := by
  by_cases hy : y = x
  · subst hy
    have hlt := (List.getElem?_eq_some_iff.mp hx).1
    simp [due, hlt]
  · have hne : x ≠ y := fun h => hy h.symm
    simp [due, hy, hne]

theorem due_of {x : ℕ} {o : ScriptObject} (hx : s.objects[x]? = some o) : s.due x = o.listens := by
  simp [due, hx]

theorem exact_set (h : s.Exact) {x : ℕ} {o p : ScriptObject} {l : Multicast GameEvent (ℕ × Method)}
    (hx : s.objects[x]? = some o)
    (hother : ∀ e y m, y ≠ x → (l e).count (y, m) = (s.listeners e).count (y, m)) :
    (Scripts.mk l (s.objects.set x p)).Exact ↔
      ∀ e m, (l e).count (x, m) = p.listens.count (e, m) := by
  rw [exact_iff_count] at h ⊢
  constructor
  · intro hall e m
    have hown := hall e x m
    rwa [due_set hx, if_pos rfl] at hown
  · intro hown e y m
    rw [due_set hx]
    split_ifs with hy
    · subst hy
      exact hown e m
    · exact (hother e y m hy).trans (h e y m)

theorem Exact.count_listener (h : s.Exact) {x : ℕ} {o : ScriptObject} (hx : s.objects[x]? = some o)
    (e : GameEvent) (m : Method) : (s.listeners e).count (x, m) = o.listens.count (e, m) := by
  rw [exact_iff_count.mp h, due_of hx]

theorem Exact.instantiate (h : s.Exact) (c : Script) : (s.next (.instantiate c)).Exact := by
  rw [exact_iff_count] at h ⊢
  intro e x m
  have hdue : (s.next (.instantiate c)).due x = s.due x := by
    simp only [due, next]
    rcases lt_trichotomy x s.objects.length with hx | rfl | hx
    · rw [List.getElem?_append_left hx]
    · simp [ScriptObject.listens]
    · rw [List.getElem?_eq_none hx.le, List.getElem?_eq_none]
      simpa using hx
  rw [hdue]
  exact h e x m

theorem Exact.destroy (h : s.Exact) (x : ℕ) : (s.next (.destroy x)).Exact := by
  rw [exact_iff_count] at h ⊢
  intro e y m
  have hdue : (s.next (.destroy x)).due y = s.due y := by
    simp only [due, next, List.getElem?_modify]
    by_cases hx : x = y
    · subst hx
      cases s.objects[x]? with
      | none => rfl
      | some o =>
        obtain ⟨script, awoken, enabled, life, enemyHealth⟩ := o
        cases life <;> simp [ScriptObject.listens, Life.destroy]
    · simp [hx]
  rw [hdue]
  exact h e y m

theorem Exact.activate (h : s.Exact) {x : ℕ} {found : Option ℕ} {o : ScriptObject}
    (hx : s.objects[x]? = some o) (hoff : o.enabled = false) (hlife : o.life ≠ .destroyed) :
    (s.activate x found o).Exact := by
  refine (exact_set h hx ?_).mpr ?_
  · intro e y m hy
    rw [count_addAll, count_addAll, count_own_ne hy, count_own_ne hy]
    rfl
  · intro e m
    rw [count_addAll, count_addAll, count_own, count_own, h.count_listener hx]
    obtain ⟨script, awoken, enabled, life, enemyHealth⟩ := o
    dsimp only at hoff hlife
    subst hoff
    cases awoken with
    | true => simp [ScriptObject.listens, ScriptObject.afterAwake, hlife, add_comm]
    | false =>
      have hfound : script.awake (if script = .enemyUI then found else none) = script.awake found := by
        cases script <;> rfl
      simp [ScriptObject.listens, ScriptObject.afterAwake, hlife, hfound, add_comm]

theorem Exact.deactivate_iff (h : s.Exact) {x : ℕ} {o : ScriptObject} (hx : s.objects[x]? = some o)
    (hon : o.enabled = true) : (s.deactivate x o).Exact ↔ o.script ≠ .serverHandler := by
  have hcount (e : GameEvent) (m : Method) :
      ((s.deactivate x o).listeners e).count (x, m) =
        o.listens.count (e, m) - o.script.onDisable.count (e, m) := by
    rw [← h.count_listener hx, deactivate, count_removeAll, count_own]
  have hother (e : GameEvent) (y : ℕ) (m : Method) (hy : y ≠ x) :
      ((s.deactivate x o).listeners e).count (y, m) = (s.listeners e).count (y, m) := by
    rw [deactivate, count_removeAll, count_own_ne hy]
    rfl
  refine (exact_set h hx hother).trans ?_
  obtain ⟨script, awoken, enabled, life, enemyHealth⟩ := o
  dsimp only at hon
  subst hon
  constructor
  · rintro hall rfl
    have hbomb := hall .onFireOffensiveBomb .sendBombDataFromServer
    rw [hcount] at hbomb
    simp [ScriptObject.listens, Script.onEnable, Script.onDisable, Script.awake] at hbomb
  · intro hscript e m
    rw [hcount, Script.onDisable_eq hscript]
    simp [ScriptObject.listens]

theorem filter_ne_none {found : Option ℕ} :
    found.filter (!s.isNull ·) = found ↔ ¬ ∃ y ∈ found, s.isNull y = true := by
  cases found with
  | none => simp
  | some y => simp

/-- Destruction takes away everything, unless a server was enabled or an enemy is already gone. -/
theorem Exact.finish_iff (h : s.Exact) {x : ℕ} {o : ScriptObject} (hx : s.objects[x]? = some o)
    (hlife : o.life = .dying) : (s.finish x o).Exact ↔
      ¬(o.script = .serverHandler ∧ o.enabled = true ∨
        o.script = .enemyUI ∧ o.awoken = true ∧ ∃ y ∈ o.enemyHealth, s.isNull y = true) := by
  have hcount (e : GameEvent) (m : Method) :
      ((s.finish x o).listeners e).count (x, m) =
        o.listens.count (e, m) -
          (if o.enabled then o.script.onDisable else []).count (e, m) -
          (if o.awoken then o.script.onDestroy (o.enemyHealth.filter (!s.isNull ·)) else []).count
            (e, m) := by
    rw [← h.count_listener hx, finish, count_removeAll, count_removeAll, count_own, count_own]
  have hother (e : GameEvent) (y : ℕ) (m : Method) (hy : y ≠ x) :
      ((s.finish x o).listeners e).count (y, m) = (s.listeners e).count (y, m) := by
    rw [finish, count_removeAll, count_removeAll, count_own_ne hy, count_own_ne hy]
    rfl
  refine (exact_set h hx hother).trans ?_
  obtain ⟨script, awoken, enabled, life, enemyHealth⟩ := o
  dsimp only at hlife
  subst hlife
  simp only [hcount, Script.onDestroy_eq]
  constructor
  · rintro hall (⟨rfl, rfl⟩ | ⟨rfl, rfl, y, hy, hnull⟩)
    · have hbomb := hall .onFireOffensiveBomb .sendBombDataFromServer
      simp [ScriptObject.listens, Script.onEnable, Script.onDisable, Script.awake] at hbomb
    · obtain rfl := Option.mem_def.mp hy
      have hdeath := hall .onEnemyDeathUpdate .updateDeathUI
      simp [ScriptObject.listens, Script.onEnable, Script.onDisable, Script.awake, hnull] at hdeath
  · intro hnot e m
    have hdisable (hon : enabled = true) : script.onDisable = script.onEnable :=
      Script.onDisable_eq (fun hs => hnot (Or.inl ⟨hs, hon⟩))
    have hdestroy (hwoken : awoken = true) :
        script.awake (enemyHealth.filter (!s.isNull ·)) = script.awake enemyHealth := by
      by_cases hs : script = .enemyUI
      · rw [filter_ne_none.mpr (fun hnull => hnot (Or.inr ⟨hs, hwoken, hnull⟩))]
      · cases script <;> first | rfl | exact absurd rfl hs
    cases enabled <;> cases awoken <;> simp [ScriptObject.listens, hdisable, hdestroy]

theorem exact_next_iff (h : s.Exact) {a : ScriptAction} (he : s.Enabled a) :
    (s.next a).Exact ↔ ¬ s.Leaks a := by
  cases a with
  | instantiate c => exact iff_of_true (h.instantiate c) not_false
  | activate x found =>
    obtain ⟨o, hx, hoff, hlife⟩ := he
    have hnext : s.next (.activate x found) = s.activate x found o := by
      rw [next, Option.mem_def.mp hx, Option.elim_some]
    rw [hnext]
    exact iff_of_true (h.activate hx hoff hlife) not_false
  | deactivate x =>
    obtain ⟨o, hx, hon, -⟩ := he
    have hnext : s.next (.deactivate x) = s.deactivate x o := by
      rw [next, Option.mem_def.mp hx, Option.elim_some]
    rw [hnext, h.deactivate_iff hx hon]
    simp [Leaks, Option.mem_def.mp hx]
  | destroy x => exact iff_of_true (h.destroy x) not_false
  | onDestroy x =>
    obtain ⟨o, hx, hlife⟩ := he
    have hnext : s.next (.onDestroy x) = s.finish x o := by
      rw [next, Option.mem_def.mp hx, Option.elim_some]
    rw [hnext, h.finish_iff hx hlife]
    simp [Leaks, Option.mem_def.mp hx]

end Steps

theorem start_exact : start.Exact := by
  intro e x m
  simp [start, due]

/-- In every run the events call the methods of exactly the scripts that are meant to listen, each
once, as long as no server is disabled and no display outlives the enemy that it shows. -/
theorem events_delivered_iff {as : List ScriptAction} (hl : system.Legal start as) :
    system.Meets (fun s a => (s.next a).Exact) start as ↔
      system.Meets (fun s a => ¬ s.Leaks a) start as := by
  refine System.meets_iff (I := Exact) ?_ ?_ start_exact hl
  · intro s a h he hok
    exact (exact_next_iff h he).mpr hok
  · intro s a h he
    exact exact_next_iff h he

/-- A duplicate server that destroys itself goes on listening. -/
theorem events_delivered_duplicateServer :
    let as : List ScriptAction := [.instantiate .serverHandler, .activate 0 none,
      .instantiate .serverHandler, .activate 1 none, .destroy 1, .onDestroy 1]
    system.Meets (fun s a => (s.next a).Exact) start as ↔
      system.Meets (fun s a => ¬ s.Leaks a) start as :=
  events_delivered_iff (by decide +kernel)

end Scripts

end SeminarTouhou
