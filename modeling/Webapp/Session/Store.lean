import Mathlib
import Webapp.Data.Decimal
import Webapp.Data.OrderedMap

namespace Webapp.Session

open Webapp.Data

/-! The session store: `DataStore`, `Session` and the expiry rule over a leveldb
database, which is a map ordered by the bytes of its keys.  Iterators read the
snapshot they were made from.
-/

abbrev Db := Std.ExtTreeMap (List UInt8) (List UInt8) compare

/-- The digit loop of `strntol`, in 32-bit arithmetic. -/
def strntolDigits : Int → List UInt8 → Int
  | x, [] => x
  | x, byte :: src => if isDigit byte then strntolDigits (int32 (x * 10 + digitValue byte)) src else x

def strntol (src : List UInt8) : Int :=
  match src with
  | 0x2d :: src => int32 (strntolDigits 0 src * -1)
  | src => strntolDigits 0 src

/-- The digits of a number below `10 ^ fuel`. -/
def decimalDigits : Nat → Nat → List UInt8
  | 0, _ => []
  | fuel + 1, value =>
      if value < 10 then [UInt8.ofNat (0x30 + value)]
      else decimalDigits fuel (value / 10) ++ [UInt8.ofNat (0x30 + value % 10)]

def fromNumber (num : Int) : List UInt8 :=
  if num < 0 then 0x2d :: decimalDigits 10 num.natAbs else decimalDigits 10 num.natAbs

namespace DataStore

/-- `DataStore::get`: the loop keeps the last value up to the key itself. -/
def get (db : Db) (key : List UInt8) : List UInt8 :=
  (((seek db key).takeWhile fun entry => compare entry.1 key != .gt).foldl
    (fun _ entry => some entry.2) none).getD []

def put (db : Db) (key value : List UInt8) : Db := db.insert key value

def wipe (db : Db) (key : List UInt8) : Db :=
  ((seek db key).takeWhile fun entry => key.isPrefixOf entry.1).foldl (fun db entry => db.erase entry.1) db

theorem get_eq (db : Db) (key : List UInt8) : get db key = db[key]?.getD [] := by
  rw [get, seek_until_greater]
  cases db[key]? <;> rfl

theorem getElem?_put (db : Db) (key value other : List UInt8) :
    (put db key value)[other]? = if key = other then some value else db[other]? := by
  rw [put, Std.ExtTreeMap.getElem?_insert]
  simp only [Std.LawfulEqCmp.compare_eq_iff_eq]

theorem getElem?_erase (db : Db) (key other : List UInt8) :
    (db.erase key)[other]? = if key = other then none else db[other]? := by
  rw [Std.ExtTreeMap.getElem?_erase]
  simp only [Std.LawfulEqCmp.compare_eq_iff_eq]

theorem getElem?_wipe (db : Db) (key other : List UInt8) :
    (wipe db key)[other]? = if key <+: other then none else db[other]? := by
  rw [wipe, getElem?_foldl_erase]
  have scanned : other ∈ ((seek db key).takeWhile fun entry => key.isPrefixOf entry.1).map Prod.fst ↔
      (∃ value, db[other]? = some value) ∧ key <+: other := by
    rw [List.mem_map]
    constructor
    · intro scanned
      obtain ⟨entry, member, rfl⟩ := scanned
      obtain ⟨found, extended⟩ := mem_seek_extensions.mp member
      exact ⟨⟨entry.2, found⟩, extended⟩
    · intro present
      obtain ⟨⟨value, found⟩, extended⟩ := present
      exact ⟨(other, value), mem_seek_extensions.mpr ⟨found, extended⟩, rfl⟩
  by_cases extended : key <+: other
  · cases found : db[other]? with
    | none => simp
    | some value => simp [scanned, found, extended]
  · simp [scanned, extended]

/-- What `wipe` removes is one run of entries, which starts where `Seek` stops and
ends at the first key that does not start with the given one. -/
theorem wipe_exact (db : Db) (key : List UInt8) :
    ∃ before wiped after, db.toList = before ++ (wiped ++ after) ∧ seek db key = wiped ++ after ∧
      (∀ entry ∈ wiped, key <+: entry.1) ∧ (∀ entry ∈ before ++ after, ¬ key <+: entry.1) ∧
      wipe db key = wiped.foldl (fun db entry => db.erase entry.1) db ∧
      ∀ other, (wipe db key)[other]? = if key <+: other then none else db[other]? := by
  obtain ⟨before, after, whole, found, outside⟩ := toList_extensions db key
  refine ⟨before, _, after, whole, found, ?_, outside, rfl, getElem?_wipe db key⟩
  intro entry member
  exact (mem_seek_extensions.mp member).2

end DataStore

def sessionIdSize : Nat := 32

def sessionTimeDefault : Int := 60 * 60 * 24 * 7

/-- "session_exp" -/
def sessionExp : List UInt8 := [0x73, 0x65, 0x73, 0x73, 0x69, 0x6f, 0x6e, 0x5f, 0x65, 0x78, 0x70]

/-- "s_" -/
def mark : List UInt8 := [0x73, 0x5f]

def sessionKey (id : List UInt8) : List UInt8 := mark ++ id

/-- `Sessions::session_expiry`, which stores the default if there is none. -/
def sessionExpiry (db : Db) : Int × Db :=
  let stored := DataStore.get db sessionExp
  if stored.length = 0 then
    (sessionTimeDefault, DataStore.put db sessionExp (fromNumber sessionTimeDefault))
  else (strntol stored, db)

/-- `Session::Session` at `now` seconds after the epoch. -/
def construct (db : Db) (id : List UInt8) (now : Int) : Db :=
  if 0 < id.length then DataStore.put db (sessionKey id) (fromNumber (int32 now)) else db

def destruct (db : Db) (id : List UInt8) : Db :=
  if 0 < id.length then DataStore.wipe db (sessionKey id) else db

def get (db : Db) (id key : List UInt8) : List UInt8 := DataStore.get db (sessionKey id ++ key)

def put (db : Db) (id key value : List UInt8) : Db := DataStore.put db (sessionKey id ++ key) value

/-- Seconds since the record was written: `mktime` of the epoch plus the stored
seconds, subtracted from the current time. -/
def timeDifference (now : Int) (record : List UInt8) : Int := now - strntol record

end Webapp.Session
