import SeminarTouhou.Network.Discovery
import SeminarTouhou.Network.RoomIDs

namespace SeminarTouhou

open Library

structure LanHost where
  ip : IPv4
  playerName : String
deriving DecidableEq

namespace LanHost

variable (ansi : List UInt8 → String) (toAnsi : String → List UInt8)

def ipText (h : LanHost) : String := String.ofList h.ip.text

/-- The bytes that `SendIP_LAN` broadcasts for `SendGameJoinMessage`; no byte lies between the fields. -/
def sendIP_LAN (h : LanHost) : List UInt8 :=
  Layout.encode (fun _ => 0) JoinRoom.ipData (toAnsi h.ipText, toAnsi h.playerName, ())

/-- The row of the host: its address, and the name as far as the field has room for it. -/
def row (h : LanHost) : String × Option String :=
  (h.ipText, some (ansi (Wire.cutName (toAnsi h.playerName))))

end LanHost

/-- ANSI has the ASCII characters as single bytes. -/
structure ReadsAscii (ansi : List UInt8 → String) (toAnsi : String → List UInt8) : Prop where
  bytes : ∀ s : List Char, (∀ c ∈ s, c.toNat < 128) →
    toAnsi (String.ofList s) = s.map (fun c => UInt8.ofNat c.toNat)
  text : ∀ s : List Char, (∀ c ∈ s, c.toNat < 128) →
    ansi (s.map (fun c => UInt8.ofNat c.toNat)) = String.ofList s

/-- A client that searches for rooms, with the hosts that have broadcast and those it has heard. -/
structure LanSession where
  search : RoomSearch
  announced : List LanHost
  heard : List LanHost

/-- A datagram may be lost, overtaken or doubled. -/
inductive LanAction
  | announce (h : LanHost)
  | deliver (h : LanHost)
  | update
deriving DecidableEq

namespace LanSession

variable (ansi : List UInt8 → String) (toAnsi : String → List UInt8)

def start : LanSession := ⟨.start, [], []⟩

def next (s : LanSession) : LanAction → LanSession
  | .announce h => { s with announced := h :: s.announced }
  | .deliver h =>
    { s with
      search := s.search.next ansi (.datagram (h.sendIP_LAN toAnsi))
      heard := s.heard ++ [h] }
  | .update => { s with search := s.search.next ansi .update }

def Enabled (s : LanSession) : LanAction → Prop
  | .deliver h => h ∈ s.announced ∧ s.search.room.receiving = true
  | _ => True

instance (s : LanSession) (a : LanAction) : Decidable (s.Enabled a) := by
  cases a <;> dsimp only [Enabled] <;> infer_instance

def system : System LanSession LanAction := ⟨Enabled, next ansi toAnsi⟩

instance (s : LanSession) (a : LanAction) : Decidable ((system ansi toAnsi).enabled s a) :=
  inferInstanceAs (Decidable (s.Enabled a))

def rows (s : LanSession) : List (String × Option String) := s.search.room.rows

/-- Each host that was heard has one row under its own address, and no row comes from elsewhere. -/
structure Lists (s : LanSession) : Prop where
  receiving : s.search.room.receiving = true
  real : ∀ r ∈ s.rows, ∃ h ∈ s.announced, r = h.row ansi toAnsi
  heard : ∀ h ∈ s.heard, h.ipText ∈ s.rows.map Prod.fst
  distinct : (s.rows.map Prod.fst).Nodup

end LanSession

section Text

theorem length_decimal (n : UInt8) : (IPv4.decimal n).length ≤ 3 := by
  rw [IPv4.decimal, Nat.length_toDigits_le_iff (by decide) (by decide)]
  exact n.toNat_lt.trans (by decide)

theorem ascii_decimal {n : UInt8} {c : Char} (h : c ∈ IPv4.decimal n) : 0 < c.toNat ∧ c.toNat < 128 := by
  have hdigit := Nat.isDigit_of_mem_toDigits (by decide) (by decide) h
  simp only [Char.isDigit, Bool.and_eq_true, decide_eq_true_eq, ge_iff_le, UInt32.le_iff_toNat_le] at hdigit
  have htoNat : c.val.toNat = c.toNat := rfl
  have hzero : ('0' : Char).val.toNat = 48 := rfl
  have hnine : ('9' : Char).val.toNat = 57 := rfl
  omega

namespace IPv4

theorem length_text (p : IPv4) : p.text.length ≤ 15 := by
  have ha := length_decimal p.a
  have hb := length_decimal p.b
  have hc := length_decimal p.c
  have hd := length_decimal p.d
  simp only [text, List.length_append, List.length_cons]
  omega

theorem ascii_text (p : IPv4) : ∀ c ∈ p.text, 0 < c.toNat ∧ c.toNat < 128 := by
  have hdot : 0 < ('.' : Char).toNat ∧ ('.' : Char).toNat < 128 := by decide
  intro c hc
  simp only [text, List.mem_append, List.mem_cons] at hc
  rcases hc with hc | rfl | hc | rfl | hc | rfl | hc
  · exact ascii_decimal hc
  · exact hdot
  · exact ascii_decimal hc
  · exact hdot
  · exact ascii_decimal hc
  · exact hdot
  · exact ascii_decimal hc

end IPv4

end Text

namespace LanHost

variable {ansi : List UInt8 → String} {toAnsi : String → List UInt8} (h : LanHost)

theorem wellFormed_sendIP_LAN : RoomSearch.WellFormed (h.sendIP_LAN toAnsi) :=
  (Layout.length_encode (fun _ => 0) JoinRoom.ipData (toAnsi h.ipText, toAnsi h.playerName, ())).ge

/-- An address has at most 15 characters, so that the field of 50 bytes holds all of it. -/
theorem cut_ipText (hr : ReadsAscii ansi toAnsi) : Wire.cutName (toAnsi h.ipText) = toAnsi h.ipText := by
  have hascii := IPv4.ascii_text h.ip
  have hbytes : toAnsi h.ipText = h.ip.text.map (fun c => UInt8.ofNat c.toNat) :=
    hr.bytes h.ip.text (fun c hc => (hascii c hc).2)
  have hlength := IPv4.length_text h.ip
  rw [hbytes, Wire.cutName, List.take_of_length_le (by rw [List.length_map]; omega),
    List.takeWhile_eq_self_iff]
  intro b hb
  obtain ⟨c, hc, rfl⟩ := List.mem_map.mp hb
  have hc := hascii c hc
  have htoNat : (UInt8.ofNat c.toNat).toNat = c.toNat := UInt8.toNat_ofNat_of_lt' (hc.2.trans (by decide))
  refine decide_eq_true (fun h0 => ?_)
  rw [h0] at htoNat
  exact hc.1.ne htoNat

theorem row_sendIP_LAN (hr : ReadsAscii ansi toAnsi) :
    RoomSearch.row ansi (h.sendIP_LAN toAnsi) = h.row ansi toAnsi := by
  have hascii := IPv4.ascii_text h.ip
  have hdecode :=
    Layout.decode_encode (fun _ => 0) JoinRoom.ipData (toAnsi h.ipText, toAnsi h.playerName, ()) []
  rw [List.append_nil] at hdecode
  have hip : ansi (toAnsi h.ipText) = h.ipText := by
    rw [ipText, hr.bytes _ (fun c hc => (hascii c hc).2)]
    exact hr.text _ (fun c hc => (hascii c hc).2)
  have hcut : ansi (Wire.cutName (toAnsi h.ipText)) = h.ipText := by rw [h.cut_ipText hr, hip]
  rw [RoomSearch.row, JoinRoom.readData, sendIP_LAN, hdecode]
  exact Prod.ext hcut rfl

end LanHost

namespace LanSession

variable {ansi : List UInt8 → String} {toAnsi : String → List UInt8} {s : LanSession} {a : LanAction}

structure Searches (ansi : List UInt8 → String) (toAnsi : String → List UInt8) (s : LanSession) : Prop where
  listens : s.search.Listens ansi
  received : s.search.received = s.heard.map (LanHost.sendIP_LAN toAnsi)
  announced : ∀ h ∈ s.heard, h ∈ s.announced

theorem Searches.next (hs : s.Searches ansi toAnsi) (he : s.Enabled a) :
    (s.next ansi toAnsi a).Searches ansi toAnsi := by
  cases a with
  | announce h =>
    exact ⟨hs.listens, hs.received, fun h' hh' => List.mem_cons_of_mem h (hs.announced h' hh')⟩
  | deliver h =>
    have hwell : s.search.GetsWellFormed (.datagram (h.sendIP_LAN toAnsi)) := h.wellFormed_sendIP_LAN
    refine ⟨hs.listens.next hwell, ?_, ?_⟩
    · change s.search.received ++ [h.sendIP_LAN toAnsi] = (s.heard ++ [h]).map (LanHost.sendIP_LAN toAnsi)
      rw [hs.received, List.map_append]
      rfl
    · intro h' hh'
      rcases List.mem_append.mp hh' with hold | hnew
      · exact hs.announced h' hold
      · rw [List.mem_singleton.mp hnew]
        exact he.1
  | update => exact ⟨hs.listens.next (a := .update) trivial, hs.received, hs.announced⟩

theorem searches_start : start.Searches ansi toAnsi :=
  ⟨⟨rfl, rfl, [], [], rfl, rfl, rfl, fun ip => by simp [start, RoomSearch.start, JoinRoom.start]⟩, rfl,
    fun _ h => absurd h List.not_mem_nil⟩

theorem Searches.announced_eq (hs : s.Searches ansi toAnsi) (hr : ReadsAscii ansi toAnsi) :
    RoomSearch.announced ansi s.search.received = s.heard.map (LanHost.row ansi toAnsi) := by
  have hall : ∀ bytes ∈ s.heard.map (LanHost.sendIP_LAN toAnsi),
      decide (RoomSearch.WellFormed bytes) = true := by
    intro bytes hb
    obtain ⟨h, -, rfl⟩ := List.mem_map.mp hb
    exact decide_eq_true h.wellFormed_sendIP_LAN
  rw [RoomSearch.announced, hs.received, List.filter_eq_self.mpr hall, List.map_map]
  exact List.map_congr_left (fun h _ => h.row_sendIP_LAN hr)

theorem Searches.lists (hs : s.Searches ansi toAnsi) (hr : ReadsAscii ansi toAnsi) :
    (s.next ansi toAnsi .update).Lists ansi toAnsi := by
  have hupdate := hs.listens.update
  have hrows : (s.next ansi toAnsi .update).rows = firsts Prod.fst (s.heard.map (LanHost.row ansi toAnsi)) :=
    hupdate.2.2.2.2.rows.trans (congrArg _ (hs.announced_eq hr))
  refine ⟨hupdate.2.2.2.1, ?_, ?_, ?_⟩
  · intro r hmem
    rw [hrows, mem_firsts] at hmem
    obtain ⟨h, hh, rfl⟩ := List.mem_map.mp (List.mem_of_find?_eq_some hmem)
    exact ⟨h, hs.announced h hh, rfl⟩
  · intro h hh
    rw [hrows, name_mem_firsts, List.map_map]
    exact List.mem_map_of_mem (f := Prod.fst ∘ LanHost.row ansi toAnsi) hh
  · rw [hrows]
    exact firsts_nodup _

/-- A name may be cut, an address never is: a client that joins by a row gets the host of the row. -/
theorem hosts_listed (hr : ReadsAscii ansi toAnsi) {as : List LanAction}
    (hl : (system ansi toAnsi).Legal start (as ++ [.update])) :
    ((system ansi toAnsi).run start (as ++ [.update])).Lists ansi toAnsi := by
  have hlegal : (system ansi toAnsi).Legal start as := ((System.meets_append _ _ start as [.update]).mp hl).1
  have hs : ((system ansi toAnsi).run start as).Searches ansi toAnsi :=
    System.invariant_legal (fun _ _ hs he => Searches.next hs he) searches_start hlegal
  rw [System.run_append]
  exact hs.lists hr

def asciiBytes (s : String) : List UInt8 := s.toList.map (fun c => UInt8.ofNat c.toNat)

theorem readsAscii_nameOf : ReadsAscii Wire.nameOf asciiBytes := by
  refine ⟨fun s _ => by rw [asciiBytes, String.toList_ofList], fun s hs => ?_⟩
  rw [Wire.nameOf, List.map_map]
  congr 1
  refine (List.map_congr_left (fun c hc => ?_)).trans (List.map_id s)
  have hlt := hs c hc
  have htoNat : (UInt8.ofNat c.toNat).toNat = c.toNat := UInt8.toNat_ofNat_of_lt' (hlt.trans (by decide))
  rw [Function.comp_apply, htoNat, Char.ofNat_toNat]
  rfl

def ada : LanHost := ⟨⟨10, 0, 0, 1⟩, "Ada"⟩

theorem hosts_listed_ada :
    ((system Wire.nameOf asciiBytes).run start
      ([.announce ada, .deliver ada, .update, .deliver ada] ++ [.update])).Lists Wire.nameOf asciiBytes :=
  hosts_listed readsAscii_nameOf (by decide +kernel)

end LanSession

end SeminarTouhou
