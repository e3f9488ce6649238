import SeminarTouhou.Level.BackgroundManager
import SeminarTouhou.Level.WaveOrder

namespace SeminarTouhou

open Library

namespace WaveManager

variable {m : WaveManager} {transition : Option Exn}

/-- The entry is an enemy and the next one is a boss: `SpawnEnemy` raises the event. -/
def beforeBoss (m : WaveManager) : Bool :=
  m.shouldSpawn && !m.bossState && (m.wave[m.waveIndex]?).any (·.enemy.isSome) && m.bossNext

def newBackgroundIndex (m : WaveManager) : ℕ := if m.miniBossSpawned then 2 else 1

theorem transitionBG_eq (m : WaveManager) :
    ∃ level : ℤ, (level = 0 ∨ level = -1) ∧
      m.transitionBG = .transitionBG m.newBackgroundIndex level level := by
  rw [transitionBG, newBackgroundIndex]
  split_ifs
  · exact ⟨-1, Or.inr rfl, rfl⟩
  · exact ⟨0, Or.inl rfl, rfl⟩

theorem spawnEnemy_beforeBoss (h : m.beforeBoss = true) (transition : Option Exn) :
    ∃ entry, m.spawnEnemy transition =
      ⟨match transition with
        | some _ => (m.setTimer entry).addEnemy entry
        | none => ((m.setTimer entry).addEnemy entry).waitAndAdvance,
        [], [.process entry m.waveIndex, .spawnEnemy m.instances, m.transitionBG], transition⟩ := by
  simp only [beforeBoss, Bool.and_eq_true, Option.any_eq_true] at h
  obtain ⟨⟨hg, entry, hw, he⟩, hn⟩ := h
  obtain ⟨prefab, he⟩ := Option.isSome_iff_exists.mp he
  have hnext : ((m.setTimer entry).addEnemy entry).bossNext = true := hn
  refine ⟨entry, ?_⟩
  simp only [spawnEnemy, hg, hw, he, hnext, Bool.and_self, if_true]
  cases transition with
  | none => rfl
  | some e => rfl

theorem spawnEnemy_of_not_beforeBoss (h : m.beforeBoss = false) (transition : Option Exn) :
    (m.spawnEnemy transition).thrown = none ∧
      ∀ e ∈ (m.spawnEnemy transition).raised, (∃ entry i, e = .process entry i) ∨ ∃ x, e = .spawnEnemy x := by
  rw [spawnEnemy]
  by_cases hg : (m.shouldSpawn && !m.bossState) = true
  · rw [if_pos hg]
    cases hw : m.wave[m.waveIndex]? with
    | none => exact ⟨rfl, fun e hm => absurd hm List.not_mem_nil⟩
    | some entry =>
      dsimp only
      cases he : entry.enemy with
      | none =>
        refine ⟨rfl, ?_⟩
        intro e hm
        exact Or.inl ⟨entry, m.waveIndex, List.mem_singleton.mp hm⟩
      | some prefab =>
        have hnext : m.bossNext = false := by
          rw [beforeBoss, hg, hw] at h
          simpa [he] using h
        have hsame : ((m.setTimer entry).addEnemy entry).bossNext = m.bossNext := rfl
        dsimp only
        rw [hsame, if_neg (Bool.not_eq_true _ ▸ hnext)]
        refine ⟨rfl, ?_⟩
        intro e hm
        obtain rfl | hm := List.mem_cons.mp hm
        · exact Or.inl ⟨_, _, rfl⟩
        · exact Or.inr ⟨_, List.mem_singleton.mp hm⟩
  · rw [if_neg hg]
    exact ⟨rfl, fun e hm => absurd hm List.not_mem_nil⟩

theorem spawnEnemy_schedules (hx : (m.spawnEnemy transition).thrown = none) {x : ℕ}
    (hs : .spawnEnemy x ∈ (m.spawnEnemy transition).raised) :
    (m.spawnEnemy transition).state.waveIndex = m.waveIndex + 1 ∧
      (m.spawnEnemy transition).state.routines m.startedRoutines = some .waitForNextSpawn := by
  have h := m.spawnEnemy_spawns transition
  generalize m.spawnEnemy transition = o at h hx hs
  cases h with
  | idle => exact absurd hs List.not_mem_nil
  | boss entry => exact absurd (List.mem_singleton.mp hs) nofun
  | enemy entry hb hw es hes => exact ⟨rfl, by simp [waitAndAdvance, setTimer, addEnemy, instantiate]⟩
  | interrupted entry hb hw e ht => cases hx

end WaveManager

namespace WaveSession

variable {m n : WaveManager} {a : WaveAction} {transition : Option Exn}

/-- A call of `SpawnEnemy`: where it starts, and what the subscriber throws. -/
def spawnCall (m : WaveManager) : WaveAction → Option (WaveManager × Option Exn)
  | .start transition => some (m, transition)
  | .resume r transition =>
    if m.routines r = some .waitForNextSpawn then some (m.stopCoroutine r, transition) else none
  | _ => none

theorem act_of_spawnCall (h : spawnCall m a = some (n, transition)) :
    act m a = n.spawnEnemy transition ∧ n.waveIndex = m.waveIndex ∧
      n.startedRoutines = m.startedRoutines := by
  cases a with
  | start t =>
    obtain ⟨rfl, rfl⟩ := Prod.mk.inj (Option.some.inj h)
    exact ⟨rfl, rfl, rfl⟩
  | resume r t =>
    rw [spawnCall] at h
    split_ifs at h with hr
    obtain ⟨rfl, rfl⟩ := Prod.mk.inj (Option.some.inj h)
    refine ⟨?_, rfl, rfl⟩
    rw [act, WaveManager.resume, hr]
  | _ => cases h

theorem act_of_no_spawnCall (h : spawnCall m a = none) :
    ∀ e ∈ (act m a).raised, ∃ x, e = .spawnBoss x := by
  cases a with
  | start t => cases h
  | resume r t =>
    rw [act, WaveManager.resume]
    cases hr : m.routines r with
    | none => exact fun e he => absurd he List.not_mem_nil
    | some c =>
      cases c with
      | waitForNextSpawn =>
        rw [spawnCall, if_pos hr] at h
        cases h
      | waitTillActivesEmpty ready =>
        cases ready with
        | false => exact fun e he => absurd he List.not_mem_nil
        | true =>
          dsimp only
          rw [(WaveManager.spawnBoss_frame _).1]
          exact fun e he => ⟨_, List.mem_singleton.mp he⟩
      | waitForBossToDie | timeTillTimeOut =>
        dsimp only
        rw [(WaveManager.bossDead_frame _).1]
        exact fun e he => absurd he List.not_mem_nil
  | _ => exact fun e he => absurd he List.not_mem_nil

end WaveSession

structure BackgroundSession where
  wave : WaveSession
  background : BackgroundManager

inductive BackgroundAction
  | wave (a : WaveSession.WaveAction)
  | start
  | resume (r : ℕ)

namespace BackgroundSession

open WaveSession (spawnCall)

variable {s : BackgroundSession} {l : BackgroundManager}

/-- What `SpawnEnemy` gets thrown at it is what `HandleTransition` throws. -/
def Enabled (s : BackgroundSession) : BackgroundAction → Prop
  | .wave a => s.wave.Enabled a ∧
    ∀ call ∈ spawnCall s.wave.manager a, call.2 = s.background.thrownAt call.1.transitionBG
  | .start => s.background.started = false
  | .resume r => r < s.background.routines.length

instance (s : BackgroundSession) (a : BackgroundAction) : Decidable (s.Enabled a) := by
  cases a <;> dsimp only [Enabled] <;> infer_instance

def raised (s : BackgroundSession) (a : WaveSession.WaveAction) : List WaveEvent :=
  (WaveSession.act s.wave.manager a).raised

def next (s : BackgroundSession) : BackgroundAction → BackgroundSession
  | .wave a => ⟨s.wave.next a, (s.raised a).foldl BackgroundManager.handle s.background⟩
  | .start => { s with background := s.background.start }
  | .resume r => { s with background := s.background.resume r }

def system : System BackgroundSession BackgroundAction := ⟨Enabled, next⟩

instance (s : BackgroundSession) (a : BackgroundAction) : Decidable (system.enabled s a) :=
  inferInstanceAs (Decidable (s.Enabled a))

def start (background : BackgroundManager) (wave : List WaveContainter) (mid final : EnemyType) :
    BackgroundSession :=
  ⟨.start wave mid final, background.loaded⟩

structure Unaborted (s : BackgroundSession) (a : WaveSession.WaveAction) : Prop where
  finds : ∀ bg cloud shadow, .transitionBG bg cloud shadow ∈ s.raised a → s.background.FindsKey bg
  returns : ∀ call ∈ spawnCall s.wave.manager a, (WaveSession.act s.wave.manager a).thrown = none
  schedules : ∀ x, .spawnEnemy x ∈ s.raised a →
    (s.wave.next a).manager.waveIndex = s.wave.manager.waveIndex + 1 ∧
      (s.wave.next a).manager.routines s.wave.manager.startedRoutines = some .waitForNextSpawn

def SpawnsOn (s : BackgroundSession) : BackgroundAction → Prop
  | .wave a => s.Unaborted a
  | _ => True

/-- At the enemy before a boss the first panel shows a background that comes before the new one: not
a transition image, and not the new one itself. -/
def ShowsEarlier (s : BackgroundSession) : BackgroundAction → Prop
  | .wave a => ∀ call ∈ spawnCall s.wave.manager a, call.1.beforeBoss = true →
    ∃ i < call.1.newBackgroundIndex, ∃ shown ∈ s.background.backgroundSprites[i]?,
      s.background.bgPanel1 = some shown
  | _ => True

instance (s : BackgroundSession) (a : BackgroundAction) : Decidable (s.ShowsEarlier a) := by
  cases a <;> dsimp only [ShowsEarlier] <;> infer_instance

theorem built_next (h : l.Built s.background) (hc : l.Configured) {a : BackgroundAction}
    (he : s.Enabled a) : l.Built (s.next a).background := by
  cases a with
  | wave a => exact h.handleAll (s.raised a)
  | start => exact h.start hc he
  | resume r => exact h.resume r

theorem thrownAt_transitionBG (hc : s.background.Configured) (m : WaveManager)
    (hf : s.background.FindsKey m.newBackgroundIndex) :
    s.background.thrownAt m.transitionBG = none := by
  have hlevel : ∀ sprites : List Sprite, 0 < sprites.length → ∀ level : ℤ, level = 0 ∨ level = -1 →
      ∃ sprite, BackgroundManager.spriteAt sprites level = .ok sprite := by
    rintro sprites hs level (rfl | rfl)
    · exact ⟨_, BackgroundManager.spriteAt_natCast (List.getElem?_eq_getElem hs)⟩
    · exact ⟨none, rfl⟩
  obtain ⟨level, hl, he⟩ := m.transitionBG_eq
  obtain ⟨cloud, hcl⟩ := hlevel _ hc.clouds level hl
  obtain ⟨shadow, hs⟩ := hlevel _ hc.shadows level hl
  obtain ⟨c, ht⟩ := hf.handleTransition hcl hs
  rw [he, BackgroundManager.thrownAt, ht]

theorem unaborted_of_no_spawnCall {a : WaveSession.WaveAction}
    (hcall : spawnCall s.wave.manager a = none) : s.Unaborted a := by
  have hquiet := WaveSession.act_of_no_spawnCall hcall
  refine ⟨?_, ?_, ?_⟩
  · intro bg cloud shadow hm
    obtain ⟨x, hx⟩ := hquiet _ hm
    cases hx
  · intro call hm
    rw [hcall] at hm
    cases hm
  · intro x hm
    obtain ⟨y, hy⟩ := hquiet _ hm
    cases hy

section SpawnCall

variable {a : WaveSession.WaveAction} {n : WaveManager} {t : Option Exn}

theorem findsKey_of_showsEarlier (h : l.Built s.background) (hc : l.Configured)
    (hn : (l.transitions.map BackgroundManager.key).Nodup)
    (hcall : spawnCall s.wave.manager a = some (n, t)) (ho : s.ShowsEarlier (.wave a))
    (hb : n.beforeBoss = true) : s.background.FindsKey n.newBackgroundIndex := by
  obtain ⟨i, hi, shown, hs, hp⟩ := ho _ hcall hb
  have hlast : n.newBackgroundIndex ≤ 2 := by
    rw [WaveManager.newBackgroundIndex]
    split_ifs <;> omega
  exact h.findsKey hc hn hi (hlast.trans_lt hc.backgrounds) hp (h.backgrounds ▸ hs)

theorem unaborted_of_findsKey (hc : s.background.Configured)
    (hcall : spawnCall s.wave.manager a = some (n, t)) (he : s.Enabled (.wave a))
    (hf : n.beforeBoss = true → s.background.FindsKey n.newBackgroundIndex) : s.Unaborted a := by
  obtain ⟨hact, hindex, hstarted⟩ := WaveSession.act_of_spawnCall hcall
  have ht : t = s.background.thrownAt n.transitionBG := he.2 _ hcall
  have hthrown : (n.spawnEnemy t).thrown = none := by
    cases hb : n.beforeBoss with
    | true =>
      obtain ⟨entry, hcase⟩ := WaveManager.spawnEnemy_beforeBoss hb t
      rw [hcase, ht]
      exact thrownAt_transitionBG hc n (hf hb)
    | false => exact (WaveManager.spawnEnemy_of_not_beforeBoss hb t).1
  refine ⟨?_, ?_, ?_⟩
  · intro bg cloud shadow hm
    rw [raised, hact] at hm
    cases hb : n.beforeBoss with
    | true =>
      obtain ⟨entry, hcase⟩ := WaveManager.spawnEnemy_beforeBoss hb t
      obtain ⟨level, -, hevent⟩ := n.transitionBG_eq
      obtain ⟨rfl, -⟩ : bg = n.newBackgroundIndex ∧ cloud = level ∧ shadow = level := by
        simpa [hcase, hevent] using hm
      exact hf hb
    | false =>
      obtain ⟨-, hquiet⟩ := WaveManager.spawnEnemy_of_not_beforeBoss hb t
      obtain ⟨entry, i, hx⟩ | ⟨x, hx⟩ := hquiet _ hm
      · cases hx
      · cases hx
  · intro call _
    rw [hact]
    exact hthrown
  · intro x hm
    rw [raised, hact] at hm
    have hstate : (s.wave.next a).manager = (n.spawnEnemy t).state := congrArg Outcome.state hact
    obtain ⟨hi, hr⟩ := WaveManager.spawnEnemy_schedules hthrown hm
    rw [hstate, ← hindex, ← hstarted]
    exact ⟨hi, hr⟩

end SpawnCall

theorem unaborted (h : l.Built s.background) (hc : l.Configured)
    (hn : (l.transitions.map BackgroundManager.key).Nodup) {a : WaveSession.WaveAction}
    (he : s.Enabled (.wave a)) (ho : s.ShowsEarlier (.wave a)) : s.Unaborted a := by
  cases hcall : spawnCall s.wave.manager a with
  | none => exact unaborted_of_no_spawnCall hcall
  | some call =>
    exact unaborted_of_findsKey (hc.built h) hcall he (findsKey_of_showsEarlier h hc hn hcall ho)

/-- The key is made of the sprite that the first panel happens to show, which is a transition image
between two loops, and the last background from the third boss on. -/
theorem transitions_unaborted {wave : List WaveContainter} {mid final : EnemyType}
    (hc : l.Configured) (hn : (l.transitions.map BackgroundManager.key).Nodup)
    {as : List BackgroundAction} (hl : system.Legal (start l wave mid final) as)
    (ho : system.Meets ShowsEarlier (start l wave mid final) as) :
    system.Meets SpawnsOn (start l wave mid final) as := by
  refine System.every_step (I := fun s => l.Built s.background) ?_ ?_ l.loaded_built hl ho
  · exact fun s a h he _ => built_next h hc he
  · intro s a h he ho
    cases a with
    | wave a => exact unaborted h hc hn he ho
    | start => trivial
    | resume r => trivial

def grass : Sprite := ⟨"Grass"⟩

def lake : Sprite := ⟨"Lake"⟩

def shrine : Sprite := ⟨"Shrine"⟩

def level : BackgroundManager where
  backgroundSprites := [grass, lake, shrine]
  cloudLevelSprites := [⟨"Clouds"⟩]
  cloudShadowSprites := [⟨"Shadows"⟩]
  transitions := [⟨⟨"GrassToShrine"⟩, shrine, grass⟩,
    ⟨⟨"GrassToLake"⟩, lake, grass⟩, ⟨⟨"LakeToShrine"⟩, shrine, lake⟩]
  transitionMap := ∅
  bgPanel1 := none
  bgPanel2 := none
  cloudPanel1 := none
  cloudPanel2 := none
  cloudShadowsPanel1 := none
  cloudShadowsPanel2 := none
  routines := []
  started := false

theorem level_configured : level.Configured := by
  refine ⟨by decide, by decide, by decide, ?_⟩
  intro i j hij shown hs new hn
  have hj : j < 3 := (List.getElem?_eq_some_iff.mp hn).1
  interval_cases j
  all_goals interval_cases i
  all_goals
    obtain rfl := Option.some.inj hs
    obtain rfl := Option.some.inj hn
    decide +kernel

/-- Up to the spawn of the enemy before the second boss: the first one has been killed. -/
def betweenBosses : List BackgroundAction :=
  [.start, .wave (.start none), .wave (.resume 0 none), .wave (.resume 1 none), .wave (.destroy 0),
    .wave .endOfFrame, .wave (.fixedUpdate 0 []), .wave (.resume 1 none), .wave (.destroy 1),
    .wave .endOfFrame, .wave (.resume 2 none)]

open WaveSession (bossEntry enemyEntry)

theorem transitions_unaborted_finished :
    system.Meets SpawnsOn (start level [enemyEntry, bossEntry, enemyEntry, bossEntry] .midBoss .finalBoss)
      (betweenBosses ++ [.resume 0, .resume 0, .resume 0, .wave (.resume 4 none)]) :=
  transitions_unaborted level_configured (by decide +kernel) (by decide +kernel) (by decide +kernel)

/-- The second boss is due one loop too early. -/
theorem betweenLoops_aborted : ¬ ∀ l : BackgroundManager, l.Configured →
    (l.transitions.map BackgroundManager.key).Nodup → ∀ wave mid final as,
    system.Legal (start l wave mid final) as → system.Meets SpawnsOn (start l wave mid final) as := by
  intro h
  have hlast := system.meets_concat (h level level_configured (by decide +kernel)
    [enemyEntry, bossEntry, enemyEntry, bossEntry] .midBoss .finalBoss
    (betweenBosses ++ [.resume 0, .resume 0] ++ [.wave (.resume 4 (some .keyNotFound))])
    (by decide +kernel))
  have hthrown := hlast.returns _ (show (_, _) ∈ spawnCall _ _ from rfl)
  exact absurd hthrown (by decide +kernel)

end BackgroundSession

end SeminarTouhou
