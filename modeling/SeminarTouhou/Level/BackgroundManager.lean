import SeminarTouhou.Level.WaveManager

namespace SeminarTouhou

open Library

structure Sprite where
  name : String
deriving DecidableEq

structure TransitionImageData where
  transitionImage : Sprite
  toSprite : Sprite
  fromSprite : Sprite
deriving DecidableEq

/-- The suspended coroutines. Each waits until its level has looped; the two fixed updates before
one starts the next are part of the latter's wait. -/
inductive BackgroundRoutine
  | startBackgroundTransition (transitionBackground newBackground : Sprite)
  | continueBackgroundTransition (transitionBackground newBackground : Sprite)
  | finishBackgroundTransition (newBackground : Sprite)
  | startCloudLevelTransition (newLevelSprite : Option Sprite) (loops : ℕ)
  | finishCloudLevelTransition (newLevelSprite : Option Sprite)
  | startCloudShadowLevelTransition (newShadowLevelSprite : Option Sprite)
  | finishCloudShadowLevelTransition (newShadowLevelSprite : Option Sprite)
deriving DecidableEq

/-- The background panels are missing before `Start`. -/
structure BackgroundManager where
  backgroundSprites : List Sprite
  cloudLevelSprites : List Sprite
  cloudShadowSprites : List Sprite
  transitions : List TransitionImageData
  transitionMap : Dict String Sprite
  bgPanel1 : Option Sprite
  bgPanel2 : Option Sprite
  cloudPanel1 : Option Sprite
  cloudPanel2 : Option Sprite
  cloudShadowsPanel1 : Option Sprite
  cloudShadowsPanel2 : Option Sprite
  routines : List BackgroundRoutine
  started : Bool

namespace BackgroundManager

def loaded (b : BackgroundManager) : BackgroundManager :=
  { b with
    transitionMap := ∅
    bgPanel1 := none
    bgPanel2 := none
    cloudPanel1 := none
    cloudPanel2 := none
    cloudShadowsPanel1 := none
    cloudShadowsPanel2 := none
    routines := []
    started := false }

/-- The panels that are set before an array turns out to be empty, and whether none was. -/
def paralaxSetUp (b : BackgroundManager) : BackgroundManager × Bool :=
  match b.backgroundSprites.head? with
  | none => (b, false)
  | some background =>
    let b := { b with bgPanel1 := some background, bgPanel2 := some background }
    match b.cloudLevelSprites.head? with
    | none => (b, false)
    | some cloud =>
      let b := { b with cloudPanel1 := some cloud, cloudPanel2 := some cloud }
      match b.cloudShadowSprites.head? with
      | none => (b, false)
      | some shadow => ({ b with cloudShadowsPanel1 := some shadow, cloudShadowsPanel2 := some shadow }, true)

def key (data : TransitionImageData) : String := data.fromSprite.name ++ data.toSprite.name

/-- `Add` throws at a key that is there already. -/
def buildTransitionConnections : List TransitionImageData → Dict String Sprite → Dict String Sprite
  | [], map => map
  | data :: transitions, map =>
    if key data ∈ map then map
    else buildTransitionConnections transitions (map.insert (key data) data.transitionImage)

def start (b : BackgroundManager) : BackgroundManager :=
  let (b, complete) := b.paralaxSetUp
  { b with
    transitionMap :=
      if complete then buildTransitionConnections b.transitions b.transitionMap else b.transitionMap
    started := true }

/-- A negative index stands for `null`. An index beyond the array throws; the exception's type does
not matter. -/
def spriteAt (sprites : List Sprite) (index : ℤ) : Except Exn (Option Sprite) :=
  if index < 0 then .ok none
  else
    match sprites[index.toNat]? with
    | none => .error .argumentOutOfRange
    | some sprite => .ok (some sprite)

def notNull : Option Sprite → Except Exn Sprite
  | none => .error .nullReference
  | some sprite => .ok sprite

def find (map : Dict String Sprite) (key : String) : Except Exn Sprite :=
  match map.lookup key with
  | none => .error .keyNotFound
  | some image => .ok image

def handleTransition (newBackgroundIndex newCloudLevelIndex newCloudShadowLevelIndex : ℤ)
    (b : BackgroundManager) : Except Exn BackgroundManager := do
  let newBackground ← spriteAt b.backgroundSprites newBackgroundIndex
  let newCloudLevel ← spriteAt b.cloudLevelSprites newCloudLevelIndex
  let newCloudShadowLevel ← spriteAt b.cloudShadowSprites newCloudShadowLevelIndex
  let shown ← notNull b.bgPanel1
  let newBackground ← notNull newBackground
  let transitionImage ← find b.transitionMap (shown.name ++ newBackground.name)
  return { b with
    routines := b.routines ++ [.startBackgroundTransition transitionImage newBackground,
      .startCloudLevelTransition newCloudLevel 1,
      .startCloudShadowLevelTransition newCloudShadowLevel] }

/-- One coroutine up to its next wait, and what goes on in its place. -/
def resumed (b : BackgroundManager) : BackgroundRoutine → BackgroundManager × List BackgroundRoutine
  | .startBackgroundTransition transitionBackground newBackground =>
    ({ b with bgPanel2 := some transitionBackground },
      [.continueBackgroundTransition transitionBackground newBackground])
  | .continueBackgroundTransition transitionBackground newBackground =>
    ({ b with bgPanel1 := some transitionBackground, bgPanel2 := some newBackground },
      [.finishBackgroundTransition newBackground])
  | .finishBackgroundTransition newBackground => ({ b with bgPanel1 := some newBackground }, [])
  | .startCloudLevelTransition newLevelSprite (loops + 1) =>
    (b, [.startCloudLevelTransition newLevelSprite loops])
  | .startCloudLevelTransition newLevelSprite 0 =>
    ({ b with cloudPanel2 := newLevelSprite }, [.finishCloudLevelTransition newLevelSprite])
  | .finishCloudLevelTransition newLevelSprite => ({ b with cloudPanel1 := newLevelSprite }, [])
  | .startCloudShadowLevelTransition newShadowLevelSprite =>
    ({ b with cloudShadowsPanel2 := newShadowLevelSprite },
      [.finishCloudShadowLevelTransition newShadowLevelSprite])
  | .finishCloudShadowLevelTransition newShadowLevelSprite =>
    ({ b with cloudShadowsPanel1 := newShadowLevelSprite }, [])

def resume (r : ℕ) (b : BackgroundManager) : BackgroundManager :=
  match b.routines[r]? with
  | none => b
  | some c =>
    let (b, rest) := b.resumed c
    { b with routines := b.routines.take r ++ rest ++ b.routines.drop (r + 1) }

/-- The exception that `HandleTransition`, if it is called, throws back to who raised the event. -/
def thrownAt (b : BackgroundManager) : WaveEvent → Option Exn
  | .transitionBG bg cloud shadow =>
    match b.handleTransition bg cloud shadow with
    | .error e => some e
    | .ok _ => none
  | _ => none

def handle (b : BackgroundManager) : WaveEvent → BackgroundManager
  | .transitionBG bg cloud shadow =>
    match b.handleTransition bg cloud shadow with
    | .error _ => b
    | .ok b => b
  | _ => b

/-- An image for every pair of backgrounds, the one with the smaller index first; and the indices
that `SpawnEnemy` raises exist. -/
structure Configured (b : BackgroundManager) : Prop where
  backgrounds : 2 < b.backgroundSprites.length
  clouds : 0 < b.cloudLevelSprites.length
  shadows : 0 < b.cloudShadowSprites.length
  pairs : ∀ i j : ℕ, i < j → ∀ shown ∈ b.backgroundSprites[i]?, ∀ new ∈ b.backgroundSprites[j]?,
    ∃ data ∈ b.transitions, data.fromSprite = shown ∧ data.toSprite = new

theorem buildTransitionConnections_lookup (transitions : List TransitionImageData)
    (map : Dict String Sprite) (hn : (transitions.map key).Nodup)
    (hd : ∀ data ∈ transitions, key data ∉ map) :
    (∀ data ∈ transitions, key data ∈ buildTransitionConnections transitions map) ∧
      ∀ k ∈ map, k ∈ buildTransitionConnections transitions map := by
  induction transitions generalizing map with
  | nil => exact ⟨fun _ hm => absurd hm List.not_mem_nil, fun _ hk => hk⟩
  | cons data transitions ih =>
    obtain ⟨hfresh, hn⟩ := List.nodup_cons.mp hn
    have hrest : ∀ other ∈ transitions, key other ∉ map.insert (key data) data.transitionImage := by
      intro other ho hin
      obtain heq | hin := (AList.mem_insert _).mp hin
      · exact hfresh (heq ▸ List.mem_map_of_mem ho)
      · exact hd other (List.mem_cons_of_mem _ ho) hin
    obtain ⟨hall, hold⟩ := ih (map.insert (key data) data.transitionImage) hn hrest
    rw [buildTransitionConnections, if_neg (hd data List.mem_cons_self)]
    constructor
    · intro other ho
      obtain rfl | ho := List.mem_cons.mp ho
      · exact hold _ ((AList.mem_insert _).mpr (Or.inl rfl))
      · exact hall other ho
    · exact fun k hk => hold k ((AList.mem_insert _).mpr (Or.inr hk))

theorem spriteAt_natCast {sprites : List Sprite} {i : ℕ} {sprite : Sprite}
    (h : sprites[i]? = some sprite) : spriteAt sprites i = .ok (some sprite) := by
  have hi : ¬ (i : ℤ) < 0 := not_lt.mpr (Int.natCast_nonneg i)
  rw [spriteAt, if_neg hi, Int.toNat_natCast, h]

/-- What `Start` makes of the sprites and images of `l`, and what everything after it leaves as it
is. -/
structure Built (l b : BackgroundManager) : Prop where
  backgrounds : b.backgroundSprites = l.backgroundSprites
  clouds : b.cloudLevelSprites = l.cloudLevelSprites
  shadows : b.cloudShadowSprites = l.cloudShadowSprites
  transitions : b.transitions = l.transitions
  before : b.started = false → b.transitionMap = ∅ ∧ b.bgPanel1 = none ∧ b.routines = []
  after : b.started = true → b.transitionMap = buildTransitionConnections l.transitions ∅

variable {l b c : BackgroundManager}

theorem loaded_built (l : BackgroundManager) : Built l l.loaded :=
  ⟨rfl, rfl, rfl, rfl, fun _ => ⟨rfl, rfl, rfl⟩, nofun⟩

theorem start_eq (hc : b.Configured) : ∃ background cloud shadow,
    b.start = { b with
      bgPanel1 := some background, bgPanel2 := some background
      cloudPanel1 := some cloud, cloudPanel2 := some cloud
      cloudShadowsPanel1 := some shadow, cloudShadowsPanel2 := some shadow
      transitionMap := buildTransitionConnections b.transitions b.transitionMap
      started := true } := by
  have hhead : ∀ sprites : List Sprite, 0 < sprites.length → ∃ sprite, sprites.head? = some sprite := by
    intro sprites hs
    exact ⟨_, List.head?_eq_some_head (List.ne_nil_of_length_pos hs)⟩
  obtain ⟨background, hb⟩ := hhead _ (Nat.zero_lt_of_lt hc.backgrounds)
  obtain ⟨cloud, hcl⟩ := hhead _ hc.clouds
  obtain ⟨shadow, hs⟩ := hhead _ hc.shadows
  refine ⟨background, cloud, shadow, ?_⟩
  simp only [start, paralaxSetUp, hb, hcl, hs, if_true]

theorem Configured.built (hc : l.Configured) (h : Built l b) : b.Configured := by
  obtain ⟨hb, hcl, hs, hp⟩ := hc
  constructor
  · rwa [h.backgrounds]
  · rwa [h.clouds]
  · rwa [h.shadows]
  · rwa [h.backgrounds, h.transitions]

theorem Built.start (h : Built l b) (hc : l.Configured) (hs : b.started = false) :
    Built l b.start := by
  obtain ⟨background, cloud, shadow, he⟩ := start_eq (hc.built h)
  rw [he]
  refine ⟨h.backgrounds, h.clouds, h.shadows, h.transitions, nofun, ?_⟩
  intro _
  rw [← h.transitions, ← (h.before hs).1]

theorem bind_eq_ok {α β : Type} {x : Except Exn α} {f : α → Except Exn β} {y : β} :
    (x >>= f) = .ok y ↔ ∃ a, x = .ok a ∧ f a = .ok y := by
  cases x with
  | error e => exact iff_of_false nofun (fun ⟨a, h, _⟩ => nomatch h)
  | ok a => exact ⟨fun h => ⟨a, rfl, h⟩, fun ⟨b, hb, h⟩ => Except.ok.inj hb ▸ h⟩

def FindsKey (b : BackgroundManager) (newBackgroundIndex : ℤ) : Prop :=
  ∃ shown newBackground transitionImage, b.bgPanel1 = some shown ∧
    spriteAt b.backgroundSprites newBackgroundIndex = .ok (some newBackground) ∧
    b.transitionMap.lookup (shown.name ++ newBackground.name) = some transitionImage

theorem notNull_eq_ok {sprite : Option Sprite} {a : Sprite} : notNull sprite = .ok a ↔ sprite = some a := by
  cases sprite with
  | none => exact iff_of_false nofun nofun
  | some b => rw [notNull, Except.ok.injEq, Option.some.injEq]

theorem find_eq_ok {map : Dict String Sprite} {k : String} {image : Sprite} :
    find map k = .ok image ↔ map.lookup k = some image := by
  rw [find]
  cases map.lookup k with
  | none => exact iff_of_false nofun nofun
  | some found => rw [Except.ok.injEq, Option.some.injEq]

theorem handleTransition_ok {bg cloud shadow : ℤ} (h : b.handleTransition bg cloud shadow = .ok c) :
    b.FindsKey bg ∧ ∃ rest, c = { b with routines := b.routines ++ rest } := by
  simp only [handleTransition, bind_eq_ok, notNull_eq_ok, find_eq_ok, pure, Except.pure,
    Except.ok.injEq] at h
  obtain ⟨_, hb, _, -, _, -, shown, hp, newBackground, rfl, image, hl, rfl⟩ := h
  exact ⟨⟨shown, newBackground, image, hp, hb, hl⟩, _, rfl⟩

theorem FindsKey.handleTransition {bg cloud shadow : ℤ} {newCloud newShadow : Option Sprite}
    (h : b.FindsKey bg) (hcl : spriteAt b.cloudLevelSprites cloud = .ok newCloud)
    (hs : spriteAt b.cloudShadowSprites shadow = .ok newShadow) :
    ∃ c, b.handleTransition bg cloud shadow = .ok c := by
  obtain ⟨shown, newBackground, image, hp, hb, hl⟩ := h
  simp only [BackgroundManager.handleTransition, bind_eq_ok, notNull_eq_ok, find_eq_ok]
  exact ⟨_, _, hb, _, hcl, _, hs, shown, hp, newBackground, rfl, image, hl, rfl⟩

theorem Built.handle (h : Built l b) (e : WaveEvent) : Built l (b.handle e) := by
  cases e with
  | transitionBG bg cloud shadow =>
    rw [BackgroundManager.handle]
    cases ht : b.handleTransition bg cloud shadow with
    | error e => exact h
    | ok c =>
      obtain ⟨⟨shown, -, -, hp, -⟩, rest, rfl⟩ := handleTransition_ok ht
      refine ⟨h.backgrounds, h.clouds, h.shadows, h.transitions, ?_, h.after⟩
      intro hs
      rw [(h.before hs).2.1] at hp
      cases hp
  | _ => exact h

theorem Built.handleAll (h : Built l b) (es : List WaveEvent) :
    Built l (es.foldl BackgroundManager.handle b) := by
  induction es generalizing b with
  | nil => exact h
  | cons e es ih => exact ih (h.handle e)

theorem resumed_frame (b : BackgroundManager) (r : BackgroundRoutine) :
    (b.resumed r).1.backgroundSprites = b.backgroundSprites ∧
      (b.resumed r).1.cloudLevelSprites = b.cloudLevelSprites ∧
      (b.resumed r).1.cloudShadowSprites = b.cloudShadowSprites ∧
      (b.resumed r).1.transitions = b.transitions ∧
      (b.resumed r).1.transitionMap = b.transitionMap ∧ (b.resumed r).1.started = b.started := by
  cases r with
  | startCloudLevelTransition newLevelSprite loops =>
    cases loops with
    | zero => exact ⟨rfl, rfl, rfl, rfl, rfl, rfl⟩
    | succ loops => exact ⟨rfl, rfl, rfl, rfl, rfl, rfl⟩
  | _ => exact ⟨rfl, rfl, rfl, rfl, rfl, rfl⟩

theorem Built.resume (h : Built l b) (r : ℕ) : Built l (b.resume r) := by
  rw [BackgroundManager.resume]
  cases hr : b.routines[r]? with
  | none => exact h
  | some routine =>
    obtain ⟨hb, hcl, hs, ht, hm, hst⟩ := b.resumed_frame routine
    refine ⟨hb.trans h.backgrounds, hcl.trans h.clouds, hs.trans h.shadows, ht.trans h.transitions,
      ?_, fun hstarted => hm.trans (h.after (hst ▸ hstarted))⟩
    intro hnew
    rw [(h.before (hst ▸ hnew)).2.2] at hr
    cases hr

theorem Built.findsKey (h : Built l b) (hc : l.Configured) (hn : (l.transitions.map key).Nodup)
    {i j : ℕ} (hij : i < j) (hj : j < l.backgroundSprites.length) {shown : Sprite}
    (hp : b.bgPanel1 = some shown) (hi : l.backgroundSprites[i]? = some shown) : b.FindsKey j := by
  have hstarted : b.started = true := by
    by_contra hs
    rw [(h.before (Bool.not_eq_true _ ▸ hs)).2.1] at hp
    cases hp
  obtain ⟨newBackground, hnew⟩ : ∃ sprite, l.backgroundSprites[j]? = some sprite :=
    ⟨_, List.getElem?_eq_getElem hj⟩
  obtain ⟨data, hd, hfrom, hto⟩ := hc.pairs i j hij shown hi _ hnew
  obtain ⟨hkeys, -⟩ := buildTransitionConnections_lookup l.transitions ∅ hn
    (fun _ _ => AList.notMem_empty _)
  obtain ⟨image, hl⟩ := Dict.exists_lookup (hkeys data hd)
  rw [key, hfrom, hto, ← h.after hstarted] at hl
  rw [← h.backgrounds] at hnew
  exact ⟨shown, newBackground, image, hp, spriteAt_natCast hnew, hl⟩

end BackgroundManager

end SeminarTouhou
