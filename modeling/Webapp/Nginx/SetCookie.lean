import Webapp.Nginx.ProcessHeader

namespace Webapp.Nginx

open Webapp.Data Webapp.MsgPack

/-! The `Set-Cookie` header of a response and the stack it may come from. -/

namespace Upstream

/-- The object at the place of the cookie: the third one of the header. -/
def cookieObject (u : Upstream) : Option Object :=
  let u := if u.pos = 0 then u.readLength else u
  (unpackNext u.unpackInteger.2.unpackInteger.2.rest).map Prod.fst

theorem unpackString_raw {u : Upstream} {bytes : List UInt8}
    (found : (unpackNext u.rest).map Prod.fst = some (.raw bytes)) (str : List UInt8) :
    (u.unpackString str).1 = bytes := by
  obtain ⟨⟨object, offset⟩, parsed, same⟩ := Option.map_eq_some_iff.mp found
  obtain rfl : object = .raw bytes := same
  simp only [unpackString, parsed]

theorem unpackString_other {u : Upstream}
    (other : ∀ bytes, (unpackNext u.rest).map Prod.fst ≠ some (.raw bytes)) (str : List UInt8) :
    (u.unpackString str).1 = str := by
  rw [unpackString]
  split
  · rename_i bytes offset parsed
    exact absurd (by rw [parsed]; rfl) (other bytes)
  · rfl
  · rfl

theorem readHeader_cookie (surroundings : Surroundings) (u : Upstream) :
    let cookie := (u.unpackInteger.2.unpackInteger.2.unpackString surroundings.cookie).1
    (u.readHeader surroundings).1.setCookie =
        (if cookie.length > 0 ∧ surroundings.listPush then u.setCookie ++ [cookie] else u.setCookie) ∧
      ((u.readHeader surroundings).2 = .ok ↔ cookie = [] ∨ surroundings.listPush = true) := by
  intro cookie
  simp only [readHeader, cookie, true_and]
  split
  · rename_i failed
    obtain ⟨nonempty, full⟩ := failed
    simp [List.length_pos_iff.mp nonempty, full]
  · rename_i served
    simp only [true_iff]
    by_cases empty : (u.unpackInteger.2.unpackInteger.2.unpackString surroundings.cookie).1 = []
    · exact Or.inl empty
    · have nonempty := List.length_pos_iff.mpr empty
      cases memory : surroundings.listPush with
      | true => exact Or.inr rfl
      | false => exact absurd ⟨nonempty, memory⟩ served

@[simp] theorem unpackInteger_setCookie (u : Upstream) : u.unpackInteger.2.setCookie = u.setCookie := by
  simp only [unpackInteger]
  split <;> rfl

theorem processHeader_settled {u : Upstream} {surroundings : Surroundings}
    (ok : (u.processHeader surroundings).2 = .ok) :
    ∃ settled : Upstream, settled.setCookie = u.setCookie ∧
      (unpackNext settled.unpackInteger.2.unpackInteger.2.rest).map Prod.fst = u.cookieObject ∧
      ∀ other, u.processHeader other = settled.readHeader other := by
  refine ⟨if u.pos = 0 then u.readLength else u, ?_, rfl, processHeader_ok ok⟩
  split
  · exact unpackInteger_setCookie u
  · rfl

/-- A header is added exactly for a cookie that is a raw and not empty, whatever
lies on the stack. -/
def CookieFromBytes (u : Upstream) : Prop :=
  (∀ first second listPush,
    (u.processHeader ⟨first, listPush⟩).2 = .ok → (u.processHeader ⟨second, listPush⟩).2 = .ok →
      (u.processHeader ⟨first, listPush⟩).1.setCookie = (u.processHeader ⟨second, listPush⟩).1.setCookie) ∧
  ∀ surroundings, (u.processHeader surroundings).2 = .ok →
    (u.processHeader surroundings).1.setCookie =
      match u.cookieObject with
      | some (.raw bytes) => if bytes = [] then u.setCookie else u.setCookie ++ [bytes]
      | _ => u.setCookie

theorem processHeader_raw {u : Upstream} {bytes : List UInt8} (raw : u.cookieObject = some (.raw bytes))
    {surroundings : Surroundings} (ok : (u.processHeader surroundings).2 = .ok) :
    (u.processHeader surroundings).1.setCookie =
      if bytes = [] then u.setCookie else u.setCookie ++ [bytes] := by
  obtain ⟨settled, same, object, header⟩ := processHeader_settled ok
  obtain ⟨added, answered⟩ := readHeader_cookie surroundings settled
  rw [unpackString_raw (object.trans raw)] at added answered
  rw [header] at ok ⊢
  rw [added, same]
  by_cases empty : bytes = []
  · simp [empty]
  · have memory : surroundings.listPush = true := (answered.mp ok).resolve_left empty
    rw [if_neg empty, if_pos ⟨List.length_pos_iff.mpr empty, memory⟩]

/-- Any string on the stack becomes a header. -/
theorem processHeader_leaks {u : Upstream} (other : ∀ bytes, u.cookieObject ≠ some (.raw bytes))
    {surroundings : Surroundings} (ok : (u.processHeader surroundings).2 = .ok) (leaked : List UInt8) :
    (u.processHeader ⟨leaked, true⟩).2 = .ok ∧
      (u.processHeader ⟨leaked, true⟩).1.setCookie =
        if leaked = [] then u.setCookie else u.setCookie ++ [leaked] := by
  obtain ⟨settled, same, object, header⟩ := processHeader_settled ok
  obtain ⟨added, answered⟩ := readHeader_cookie ⟨leaked, true⟩ settled
  have kept := unpackString_other (u := settled.unpackInteger.2.unpackInteger.2)
    (fun bytes found => other bytes (object.symm.trans found)) leaked
  rw [kept] at added answered
  rw [header, added, same]
  refine ⟨answered.mpr (Or.inr rfl), ?_⟩
  by_cases empty : leaked = []
  · simp [empty]
  · rw [if_neg empty, if_pos ⟨List.length_pos_iff.mpr empty, rfl⟩]

end Upstream

/-- The header depends on the received bytes alone exactly when the object at the
place of the cookie is a raw. -/
theorem processHeader_cookie_iff (u : Upstream)
    (answered : ∃ surroundings, (u.processHeader surroundings).2 = .ok) :
    u.CookieFromBytes ↔ ∃ bytes, u.cookieObject = some (.raw bytes) := by
  obtain ⟨surroundings, ok⟩ := answered
  constructor
  · intro fromBytes
    by_contra other
    have others : ∀ bytes, u.cookieObject ≠ some (.raw bytes) := fun bytes raw => other ⟨bytes, raw⟩
    obtain ⟨okEmpty, empty⟩ := Upstream.processHeader_leaks others ok []
    obtain ⟨okLeaked, leaked⟩ := Upstream.processHeader_leaks others ok [0x41]
    have same := fromBytes.1 [] [0x41] true okEmpty okLeaked
    rw [empty, leaked] at same
    simp at same
  · intro raw
    obtain ⟨bytes, raw⟩ := raw
    refine ⟨?_, ?_⟩
    · intro first second listPush okFirst okSecond
      rw [Upstream.processHeader_raw raw okFirst, Upstream.processHeader_raw raw okSecond]
    · intro surroundings ok
      rw [Upstream.processHeader_raw raw ok, raw]

def Upstream.withCookie (object : List UInt8) : Upstream :=
  { Upstream.fresh with received := UInt8.ofNat (object.length + 3) :: 0x00 :: 0x00 :: object ++ [0xa0] }

theorem processHeader_cookie_raw : (Upstream.withCookie [0xa1, 0x41]).CookieFromBytes :=
  (processHeader_cookie_iff (Upstream.withCookie [0xa1, 0x41]) ⟨⟨[], true⟩, by decide⟩).mpr ⟨[0x41], rfl⟩

theorem processHeader_cookie_nil :
    (Upstream.withCookie [0xc0]).cookieObject = some .nil ∧
      ((Upstream.withCookie [0xc0]).processHeader ⟨[], true⟩).2 = .ok ∧
      ((Upstream.withCookie [0xc0]).processHeader ⟨[], true⟩).1.setCookie = [] ∧
      ((Upstream.withCookie [0xc0]).processHeader ⟨[0x41], true⟩).2 = .ok ∧
      ((Upstream.withCookie [0xc0]).processHeader ⟨[0x41], true⟩).1.setCookie = [[0x41]] := by
  refine ⟨rfl, ?_⟩
  decide

end Webapp.Nginx
