import SeminarTouhou.Library.System
import SeminarTouhou.Library.Ranking
import SeminarTouhou.Network.Packet

namespace SeminarTouhou

open Library

/-- An object under the results container, with what its four texts show (the numbers before they
are formatted). -/
structure ResultRow where
  instanceID : ℕ
  name : String
  time : ℚ
  points : ℤ
  score : ℤ
deriving DecidableEq

structure ResultUI where
  resultData : PlayerSendResultData
  resultOBJ : ResultRow
deriving DecidableEq

/-- `mResultsContent` is the child list of the container, `instances` the number of rows
instantiated so far. -/
structure ResultsDisplay where
  mFirstPlaceText : String
  mSecondPlaceText : String
  mThirdPlaceText : String
  mResultsContent : List ResultRow
  mSortedResults : List ResultUI
  mStoredIDs : List UInt32
  instances : ℕ
deriving DecidableEq

/-- An index past the end means the last place. -/
def setSiblingIndex (row : ResultRow) (index : ℕ) (children : List ResultRow) : List ResultRow :=
  (children.erase row).insertIdx (min index (children.erase row).length) row

namespace ResultsDisplay

def start (first second third : String) : ResultsDisplay := ⟨first, second, third, [], [], [], 0⟩

def getIfNewScoreIsHigher (newResult storedResult : PlayerSendResultData) : Bool :=
  newResult.score > storedResult.score

/-- The first index that is out of range throws, and the exception is dropped. -/
def updateTop3 (d : ResultsDisplay) : ResultsDisplay :=
  match d.mSortedResults[0]? with
  | none => d
  | some r =>
    let d := { d with mFirstPlaceText := r.resultData.name }
    match d.mSortedResults[1]? with
    | none => d
    | some r =>
      let d := { d with mSecondPlaceText := r.resultData.name }
      match d.mSortedResults[2]? with
      | none => d
      | some r => { d with mThirdPlaceText := r.resultData.name }

def newResult (result : PlayerSendResultData) (d : ResultsDisplay) : ResultUI :=
  ⟨result, ⟨d.instances, result.name, result.time, result.points, result.score⟩⟩

/-- `Instantiate` under the container: a new child is the last one. -/
def instantiate (row : ResultRow) (d : ResultsDisplay) : ResultsDisplay :=
  { d with mResultsContent := d.mResultsContent ++ [row], instances := d.instances + 1 }

def store (playerID : UInt32) (d : ResultsDisplay) : ResultsDisplay :=
  { d with mStoredIDs := d.mStoredIDs ++ [playerID] }

/-- `mSortedResults[i].resultOBJ.transform.SetSiblingIndex(i + 1)` -/
def displace (i : ℕ) (d : ResultsDisplay) : ResultsDisplay :=
  match d.mSortedResults[i]? with
  | none => d
  | some r => { d with mResultsContent := setSiblingIndex r.resultOBJ (i + 1) d.mResultsContent }

def insertAt (i : ℕ) (new : ResultUI) (d : ResultsDisplay) : ResultsDisplay :=
  { d with
    mResultsContent := setSiblingIndex new.resultOBJ i d.mResultsContent
    mSortedResults := d.mSortedResults.insertIdx i new }

def append (new : ResultUI) (d : ResultsDisplay) : ResultsDisplay :=
  { d with
    mResultsContent := setSiblingIndex new.resultOBJ d.mResultsContent.length d.mResultsContent
    mSortedResults := d.mSortedResults ++ [new] }

def insertResult (result : PlayerSendResultData) (d : ResultsDisplay) : ResultsDisplay :=
  if result.playerID ∈ d.mStoredIDs then d
  else
    let new := d.newResult result
    let d := (d.instantiate new.resultOBJ).store result.playerID
    match d.mSortedResults.findIdx? (fun r => getIfNewScoreIsHigher result r.resultData) with
    | some i => ((d.displace i).insertAt i new).updateTop3
    | none => (d.append new).updateTop3

def system : System ResultsDisplay PlayerSendResultData := ⟨fun _ _ => True, fun d r => d.insertResult r⟩

def results (d : ResultsDisplay) : List PlayerSendResultData := d.mSortedResults.map ResultUI.resultData

def top3 (d : ResultsDisplay) : List String :=
  [d.mFirstPlaceText, d.mSecondPlaceText, d.mThirdPlaceText]

def scoreOf (r : ResultUI) : ℤ := r.resultData.score

section Laws

variable (d : ResultsDisplay)

@[simp] theorem updateTop3_sorted : d.updateTop3.mSortedResults = d.mSortedResults := by
  simp only [updateTop3]
  repeat' split
  all_goals rfl

@[simp] theorem updateTop3_content : d.updateTop3.mResultsContent = d.mResultsContent := by
  simp only [updateTop3]
  repeat' split
  all_goals rfl

@[simp] theorem updateTop3_stored : d.updateTop3.mStoredIDs = d.mStoredIDs := by
  simp only [updateTop3]
  repeat' split
  all_goals rfl

@[simp] theorem updateTop3_instances : d.updateTop3.instances = d.instances := by
  simp only [updateTop3]
  repeat' split
  all_goals rfl

theorem updateTop3_top3 :
    d.updateTop3.top3 = (d.results.map (fun r => r.name)).take 3 ++ d.top3.drop d.results.length := by
  obtain ⟨first, second, third, content, sorted, stored, n⟩ := d
  match sorted with
  | [] => rfl
  | [a] => rfl
  | [a, b] => rfl
  | a :: b :: c :: l => simp [updateTop3, top3, results]

end Laws

section Insert

variable {d : ResultsDisplay} {result : PlayerSendResultData}

@[simp] theorem newResult_data : (d.newResult result).resultData = result := rfl

theorem getIfNewScoreIsHigher_iff (result : PlayerSendResultData) (r : ResultUI) :
    getIfNewScoreIsHigher result r.resultData = true ↔ scoreOf r < result.score := by
  simp [getIfNewScoreIsHigher, scoreOf]

theorem place_findIdx (new : ResultUI) (l : List ResultUI) : place scoreOf new l =
    match l.findIdx? (fun r => getIfNewScoreIsHigher new.resultData r.resultData) with
    | some i => l.insertIdx i new
    | none => l ++ [new] := by
  induction l with
  | nil => rfl
  | cons r l ih =>
    by_cases h : scoreOf r < scoreOf new
    · rw [place_cons_beaten h, List.findIdx?_cons, (getIfNewScoreIsHigher_iff new.resultData r).mpr h]
      rfl
    · have hg := Bool.eq_false_iff.mpr (mt (getIfNewScoreIsHigher_iff new.resultData r).mp h)
      rw [place_cons_unbeaten h, ih, List.findIdx?_cons, hg]
      cases l.findIdx? (fun r => getIfNewScoreIsHigher new.resultData r.resultData) with
      | none => rfl
      | some i => rfl

theorem displace_frame (i : ℕ) (d : ResultsDisplay) :
    (d.displace i).mSortedResults = d.mSortedResults ∧ (d.displace i).mStoredIDs = d.mStoredIDs ∧
      (d.displace i).instances = d.instances ∧ (d.displace i).top3 = d.top3 := by
  unfold displace
  cases d.mSortedResults[i]? with
  | none => exact ⟨rfl, rfl, rfl, rfl⟩
  | some r => exact ⟨rfl, rfl, rfl, rfl⟩

theorem updateTop3_spec {e : ResultsDisplay} {sorted : List ResultUI} (hs : e.mSortedResults = sorted)
    (ht : e.top3 = d.top3) : e.updateTop3.mSortedResults = sorted ∧ e.updateTop3.top3 =
      (e.updateTop3.results.map (fun r => r.name)).take 3 ++
        d.top3.drop e.updateTop3.results.length := by
  refine ⟨(updateTop3_sorted e).trans hs, ?_⟩
  rw [updateTop3_top3, ht]
  simp only [results, updateTop3_sorted]

theorem insertResult_known (h : result.playerID ∈ d.mStoredIDs) : d.insertResult result = d :=
  if_pos h

theorem insertResult_new (h : result.playerID ∉ d.mStoredIDs) :
    (d.insertResult result).mSortedResults = place scoreOf (d.newResult result) d.mSortedResults ∧
      (d.insertResult result).top3 =
        ((d.insertResult result).results.map (fun r => r.name)).take 3 ++
          d.top3.drop (d.insertResult result).results.length := by
  have hp := place_findIdx (d.newResult result) d.mSortedResults
  rw [newResult_data] at hp
  have hsort : ((d.instantiate (d.newResult result).resultOBJ).store
    result.playerID).mSortedResults = d.mSortedResults := rfl
  rw [hp, insertResult, if_neg h]
  dsimp only
  rw [hsort]
  cases hi : d.mSortedResults.findIdx? (fun r => getIfNewScoreIsHigher result r.resultData) with
  | none => exact updateTop3_spec rfl rfl
  | some i =>
    obtain ⟨hs, -, -, ht⟩ :=
      displace_frame i ((d.instantiate (d.newResult result).resultOBJ).store result.playerID)
    apply updateTop3_spec
    · rw [insertAt, hs]
      rfl
    · exact ht

theorem insertResult_stored (h : result.playerID ∉ d.mStoredIDs) :
    (d.insertResult result).mStoredIDs = d.mStoredIDs ++ [result.playerID] ∧
      (d.insertResult result).instances = d.instances + 1 := by
  rw [insertResult, if_neg h]
  dsimp only
  split
  · rw [updateTop3_stored, updateTop3_instances]
    exact ⟨(displace_frame _ _).2.1, (displace_frame _ _).2.2.1⟩
  · rw [updateTop3_stored, updateTop3_instances]
    exact ⟨rfl, rfl⟩

end Insert

end ResultsDisplay

end SeminarTouhou
