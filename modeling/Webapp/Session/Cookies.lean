import Webapp.Session.Semantics

namespace Webapp.Session

/-! The id `new_session` makes and the scan of `get_cookie_session` that finds it
again in a cookie header.
-/

theorem hexDigit_inj {first second : Nat} (firstBound : first < 16) (secondBound : second < 16)
    (same : hexDigit first = hexDigit second) : first = second := by
  have table : ∀ first second : Fin 16, hexDigit first = hexDigit second → first = second := by decide
  exact congrArg Fin.val (table ⟨first, firstBound⟩ ⟨second, secondBound⟩ same)

theorem hexDigits_inj {first second : UInt8} (high : hexDigit (first.toNat / 16) = hexDigit (second.toNat / 16))
    (low : hexDigit (first.toNat % 16) = hexDigit (second.toNat % 16)) : first = second := by
  have firstBound := first.toNat_lt
  have secondBound := second.toNat_lt
  have highs := hexDigit_inj (by omega) (by omega) high
  have lows := hexDigit_inj (by omega) (by omega) low
  apply UInt8.toNat_inj.mp
  omega

theorem newSessionId_inj {first second : Digest} (same : newSessionId first = newSessionId second) :
    first.bytes.take (sessionIdSize / 2) = second.bytes.take (sessionIdSize / 2) := by
  rw [newSessionId, newSessionId] at same
  generalize first.bytes.take (sessionIdSize / 2) = firsts at same ⊢
  generalize second.bytes.take (sessionIdSize / 2) = seconds at same ⊢
  induction firsts generalizing seconds with
  | nil =>
      cases seconds with
      | nil => rfl
      | cons second seconds => simp at same
  | cons first firsts ih =>
      cases seconds with
      | nil => simp at same
      | cons second seconds =>
          simp only [List.flatMap_cons, List.cons_append, List.nil_append, List.cons.injEq] at same
          obtain ⟨high, low, rest⟩ := same
          rw [hexDigits_inj high low, ih seconds rest]

/-- One pair of a cookie header, without the bytes that end a name or a pair. -/
structure Cookie where
  name : List UInt8
  value : List UInt8
  name_plain : 0x20 ∉ name ∧ 0x3d ∉ name
  value_plain : 0x20 ∉ value

/-- "sessionid" -/
def sessionName : List UInt8 := [0x73, 0x65, 0x73, 0x73, 0x69, 0x6f, 0x6e, 0x69, 0x64]

namespace Cookie

def text (cookie : Cookie) : List UInt8 := cookie.name ++ 0x3d :: cookie.value

theorem text_plain (cookie : Cookie) : 0x20 ∉ cookie.text := by
  simp [text, cookie.name_plain.1, cookie.value_plain]

theorem take_text_ne {cookie : Cookie} (named : cookie.name ≠ sessionName) (rest : List UInt8) :
    (cookie.text ++ rest).take sessionIdStr.length ≠ sessionIdStr := by
  intro same
  have begins : sessionIdStr <+: cookie.text ++ rest := by
    rw [← same]
    exact List.take_prefix _ _
  obtain ⟨more, continued⟩ := begins
  have upTo (name more : List UInt8) (plain : 0x3d ∉ name) :
      (name ++ 0x3d :: more).takeWhile (· ≠ 0x3d) = name := by
    rw [List.takeWhile_append_of_pos]
    · simp
    · intro byte member
      simp only [decide_eq_true_eq]
      intro equal
      exact plain (equal ▸ member)
  have names := congrArg (List.takeWhile (· ≠ 0x3d)) continued
  rw [text, List.append_assoc, List.cons_append, upTo _ _ cookie.name_plain.2,
    show sessionIdStr ++ more = sessionName ++ 0x3d :: more from rfl, upTo _ _ (by decide)] at names
  exact named names.symm

end Cookie

/-- The pairs as a browser sends them, joined by a semicolon and a blank. -/
def cookieHeader (texts : List (List UInt8)) : List UInt8 := [0x3b, 0x20].intercalate texts

def following (texts : List (List UInt8)) : List UInt8 := texts.flatMap fun text => 0x3b :: 0x20 :: text

theorem cookieHeader_cons (text : List UInt8) (texts : List (List UInt8)) :
    cookieHeader (text :: texts) = text ++ following texts := by
  induction texts generalizing text with
  | nil => simp [cookieHeader, following]
  | cons second texts ih =>
      have joined : cookieHeader (text :: second :: texts) =
          text ++ 0x3b :: 0x20 :: cookieHeader (second :: texts) := by
        simp [cookieHeader, List.intercalate]
      rw [joined, ih]
      rfl

theorem following_append (first second : List (List UInt8)) :
    following (first ++ second) = following first ++ following second := List.flatMap_append

section

variable (beyond : UInt8)

theorem scanCookies_short {atStart : Bool} {cookies : List UInt8}
    (short : cookies.length < sessionIdStr.length + sessionIdSize) : scanCookies beyond atStart cookies = none := by
  cases cookies with
  | nil => rfl
  | cons byte rest =>
      rw [scanCookies.eq_def]
      simp only [short, if_true]

theorem scanCookies_plain {text : List UInt8} (plain : 0x20 ∉ text) (rest : List UInt8) :
    scanCookies beyond false (text ++ rest) = scanCookies beyond false rest := by
  induction text with
  | nil => rfl
  | cons byte text ih =>
      have visible : byte ≠ 0x20 := fun blank => plain (blank ▸ List.mem_cons_self)
      by_cases short : (byte :: (text ++ rest)).length < sessionIdStr.length + sessionIdSize
      · have shorter : rest.length < sessionIdStr.length + sessionIdSize := by
          simp only [List.length_cons, List.length_append] at short
          omega
        rw [List.cons_append, scanCookies_short beyond short, scanCookies_short beyond shorter]
      · rw [List.cons_append, scanCookies.eq_def]
        simp only [short, visible, if_false, Bool.false_eq_true, false_and]
        exact ih fun blank => plain (List.mem_cons_of_mem _ blank)

/-- At a blank the bound is checked before the blank is skipped, and the scan then
steps over the byte behind it as well. -/
theorem scanCookies_blank (atStart : Bool) (rest : List UInt8) :
    scanCookies beyond atStart (0x20 :: rest) =
      if rest.length + 1 < sessionIdStr.length + sessionIdSize then none
      else if (rest ++ [beyond]).take sessionIdStr.length = sessionIdStr then
        some (((rest ++ [beyond]).drop sessionIdStr.length).take sessionIdSize)
      else scanCookies beyond false rest.tail := by
  rw [scanCookies.eq_def]
  cases rest with
  | nil => rfl
  | cons byte rest => rfl

theorem scanCookies_separated (rest : List UInt8) :
    scanCookies beyond false (0x3b :: 0x20 :: rest) =
      if rest.length + 1 < sessionIdStr.length + sessionIdSize then none
      else if (rest ++ [beyond]).take sessionIdStr.length = sessionIdStr then
        some (((rest ++ [beyond]).drop sessionIdStr.length).take sessionIdSize)
      else scanCookies beyond false rest.tail := by
  have separator : scanCookies beyond false ([0x3b] ++ 0x20 :: rest) = scanCookies beyond false (0x20 :: rest) :=
    scanCookies_plain beyond (by decide) (0x20 :: rest)
  rw [← List.singleton_append, separator, scanCookies_blank]

/-- The byte that is stepped over is not the blank before the next pair. -/
theorem scanCookies_other {cookie : Cookie} (named : cookie.name ≠ sessionName) (rest : List UInt8) :
    scanCookies beyond false (0x3b :: 0x20 :: (cookie.text ++ rest)) = scanCookies beyond false rest := by
  have different := cookie.take_text_ne named (rest ++ [beyond])
  rw [← List.append_assoc] at different
  rw [scanCookies_separated, if_neg different]
  split
  · rename_i short
    rw [List.length_append] at short
    exact (scanCookies_short beyond (by omega)).symm
  · have plain := cookie.text_plain
    cases shape : cookie.text with
    | nil => simp [Cookie.text] at shape
    | cons byte text =>
        rw [shape] at plain
        exact scanCookies_plain beyond (fun blank => plain (List.mem_cons_of_mem _ blank)) rest

theorem scanCookies_following {before : List Cookie} (others : ∀ cookie ∈ before, cookie.name ≠ sessionName)
    (rest : List UInt8) :
    scanCookies beyond false (following (before.map Cookie.text) ++ rest) = scanCookies beyond false rest := by
  induction before with
  | nil => rfl
  | cons cookie before ih =>
      have skipped := scanCookies_other beyond (others cookie List.mem_cons_self)
        (following (before.map Cookie.text) ++ rest)
      rw [ih fun other member => others other (List.mem_cons_of_mem _ member)] at skipped
      simpa [following] using skipped

theorem scanCookies_start {byte : UInt8} {rest : List UInt8} (visible : byte ≠ 0x20) :
    scanCookies beyond true (byte :: rest) =
      if (byte :: rest).length < sessionIdStr.length + sessionIdSize then none
      else if (byte :: rest).take sessionIdStr.length = sessionIdStr then
        some (((byte :: rest).drop sessionIdStr.length).take sessionIdSize)
      else scanCookies beyond false rest := by
  rw [scanCookies.eq_def]
  simp only [visible, if_false, true_and]

theorem scanCookies_other_first {cookie : Cookie} (named : cookie.name ≠ sessionName) (rest : List UInt8) :
    scanCookies beyond true (cookie.text ++ rest) = scanCookies beyond false rest := by
  have different := cookie.take_text_ne named rest
  have plain := cookie.text_plain
  cases shape : cookie.text with
  | nil => simp [Cookie.text] at shape
  | cons byte text =>
      rw [shape] at plain different
      have visible : byte ≠ 0x20 := fun blank => plain (blank ▸ List.mem_cons_self)
      rw [List.cons_append, scanCookies_start beyond visible, ← List.cons_append, if_neg different]
      split
      · rename_i short
        rw [List.length_append] at short
        exact (scanCookies_short beyond (by omega)).symm
      · exact scanCookies_plain beyond (fun blank => plain (List.mem_cons_of_mem _ blank)) rest

/-- The id is cut out of what stands behind the name, wherever the value ends. -/
def cutId (behind : List UInt8) : Option (List UInt8) :=
  if sessionIdSize ≤ behind.length then some (behind.take sessionIdSize) else none

theorem scanCookies_named (value rest : List UInt8) :
    scanCookies beyond false (0x3b :: 0x20 :: (sessionIdStr ++ value ++ rest)) =
      cutId (value ++ rest ++ [beyond]) := by
  rw [scanCookies_separated, cutId]
  simp only [List.append_assoc, List.take_left, List.drop_left, if_true]
  simp only [List.length_append, List.length_singleton]
  split <;> split <;> first | rfl | omega

theorem scanCookies_named_first (value rest : List UInt8) :
    scanCookies beyond true (sessionIdStr ++ value ++ rest) = cutId (value ++ rest) := by
  have shape : sessionIdStr ++ value ++ rest = 0x73 :: (sessionIdStr.tail ++ value ++ rest) := rfl
  rw [shape, scanCookies_start beyond (by decide), ← shape, cutId]
  simp only [List.append_assoc, List.take_left, List.drop_left, if_true]
  simp only [List.length_append]
  split <;> split <;> first | rfl | omega

end

def behindName (beyond : UInt8) (before : List Cookie) (cookie : Cookie) (after : List Cookie) : List UInt8 :=
  cookie.value ++ following (after.map Cookie.text) ++ if before.isEmpty then [] else [beyond]

theorem Cookie.text_of_named {cookie : Cookie} (named : cookie.name = sessionName) :
    cookie.text = sessionIdStr ++ cookie.value := by
  rw [text, named]
  rfl

theorem scanCookies_header (beyond : UInt8) {before : List Cookie} (cookie : Cookie) (after : List Cookie)
    (others : ∀ other ∈ before, other.name ≠ sessionName) (named : cookie.name = sessionName) :
    scanCookies beyond true (cookieHeader ((before ++ cookie :: after).map Cookie.text)) =
      cutId (behindName beyond before cookie after) := by
  cases before with
  | nil =>
      rw [List.nil_append, List.map_cons, cookieHeader_cons, Cookie.text_of_named named, scanCookies_named_first,
        behindName, List.isEmpty_nil, if_pos rfl, List.append_nil]
  | cons first before =>
      have split : following ((before ++ cookie :: after).map Cookie.text) =
          following (before.map Cookie.text) ++
            0x3b :: 0x20 :: (sessionIdStr ++ cookie.value ++ following (after.map Cookie.text)) := by
        rw [List.map_append, following_append, List.map_cons, Cookie.text_of_named named]
        rfl
      rw [List.cons_append, List.map_cons, cookieHeader_cons,
        scanCookies_other_first beyond (others first List.mem_cons_self), split,
        scanCookies_following beyond fun other member => others other (List.mem_cons_of_mem _ member),
        scanCookies_named]
      rfl

theorem scanCookies_unnamed (beyond : UInt8) {cookies : List Cookie}
    (others : ∀ cookie ∈ cookies, cookie.name ≠ sessionName) :
    scanCookies beyond true (cookieHeader (cookies.map Cookie.text)) = none := by
  cases cookies with
  | nil => rfl
  | cons first cookies =>
      have rest := scanCookies_following beyond (fun other member => others other (List.mem_cons_of_mem first member)) []
      rw [List.append_nil] at rest
      rw [List.map_cons, cookieHeader_cons, scanCookies_other_first beyond (others first List.mem_cons_self), rest]
      rfl

theorem cutId_length {behind id : List UInt8} (cut : cutId behind = some id) : id.length = sessionIdSize := by
  rw [cutId] at cut
  split at cut
  · cases cut
    rw [List.length_take]
    omega
  · cases cut

theorem cookieSessionId_of_scan {beyond : UInt8} {header behind : List UInt8}
    (scanned : scanCookies beyond true header = cutId behind) : cookieSessionId header beyond = cutId behind := by
  rw [cookieSessionId]
  split
  · rename_i short
    rw [← scanned, scanCookies_short beyond short]
  · rw [scanned]
    cases cut : cutId behind with
    | none => rfl
    | some id => simp [cutId_length cut]

theorem hexDigit_ne_blank {value : Nat} (bound : value < 16) : hexDigit value ≠ 0x20 := by
  have table : ∀ value : Fin 16, hexDigit value ≠ 0x20 := by decide
  exact table ⟨value, bound⟩

theorem newSessionId_plain (digest : Digest) : 0x20 ∉ newSessionId digest := by
  intro member
  obtain ⟨byte, _, blank⟩ := List.mem_flatMap.mp member
  have bound := byte.toNat_lt
  have high : hexDigit (byte.toNat / 16) ≠ 0x20 := hexDigit_ne_blank (by omega)
  have low : hexDigit (byte.toNat % 16) ≠ 0x20 := hexDigit_ne_blank (by omega)
  simp [high.symm, low.symm] at blank

def sessionCookie (digest : Digest) : Cookie where
  name := sessionName
  value := newSessionId digest
  name_plain := by decide
  value_plain := newSessionId_plain digest

/-- An issued id is found at any place among other cookies, and no two digests
share one that differ in the bytes it is made of. -/
theorem getCookieSession_issued (digest : Digest) (before after : List Cookie)
    (others : ∀ cookie ∈ before ++ after, cookie.name ≠ sessionName) (beyond : UInt8) :
    let header := cookieHeader ((before ++ sessionCookie digest :: after).map Cookie.text)
    cookieSessionId header beyond = some (newSessionId digest) ∧
      (∀ (sessions : Sessions) (now : Int), sessions.call (.getCookieSession header beyond now) =
        sessions.call (.getSession (newSessionId digest) now)) ∧
      ∀ other : Digest, digest.bytes.take 16 ≠ other.bytes.take 16 → newSessionId digest ≠ newSessionId other := by
  intro header
  have size := newSessionId_length digest
  have scanned := scanCookies_header beyond (sessionCookie digest) after
    (fun cookie member => others cookie (List.mem_append_left _ member)) rfl
  have found : cookieSessionId header beyond = some (newSessionId digest) := by
    rw [cookieSessionId_of_scan scanned, cutId, behindName, List.append_assoc]
    rw [if_pos (by rw [List.length_append]; exact Nat.le_add_right_of_le size.ge)]
    exact congrArg some (List.take_left' size)
  refine ⟨found, ?_, ?_⟩
  · intro sessions now
    simp only [Sessions.call, found]
  · intro other different same
    exact different (newSessionId_inj same)

def plainCookie : Cookie := ⟨[0x61], [0x62], by decide, by decide⟩

theorem getCookieSession_between :
    cookieSessionId
        (cookieHeader (([plainCookie] ++ sessionCookie (repeatedDigest 0) :: [plainCookie]).map Cookie.text)) 0 =
      some (newSessionId (repeatedDigest 0)) :=
  (getCookieSession_issued (repeatedDigest 0) [plainCookie] [plainCookie] (by decide) 0).1

/-- The value of the first cookie of the name is an id by its length, or the header
ends too early for the scan to cut one, or it is longer and a later cookie of the
name has what is cut from it. -/
def WholeValue (cookies : List Cookie) : Prop :=
  ∀ before cookie after, cookies = before ++ cookie :: after → cookie.name = sessionName →
    (∀ other ∈ before, other.name ≠ sessionName) →
    cookie.value.length = sessionIdSize ∨
    (cookie.value ++ following (after.map Cookie.text)).length + (if before.isEmpty then 0 else 1) < sessionIdSize ∨
    (sessionIdSize < cookie.value.length ∧
      ∃ later ∈ after, later.name = sessionName ∧ later.value = cookie.value.take sessionIdSize)

section

variable (beyond : UInt8) (before : List Cookie) {after : List Cookie} {cookie : Cookie}

theorem behindName_length : (behindName beyond before cookie after).length =
    (cookie.value ++ following (after.map Cookie.text)).length + if before.isEmpty then 0 else 1 := by
  rw [behindName, List.length_append]
  split <;> rfl

theorem behindName_take (long : sessionIdSize ≤ cookie.value.length) :
    (behindName beyond before cookie after).take sessionIdSize = cookie.value.take sessionIdSize := by
  rw [behindName, List.append_assoc, List.take_append_of_le_length long]

theorem mem_behindName_take (short : cookie.value.length < sessionIdSize) (more : after ≠ []) :
    0x3b ∈ (behindName beyond before cookie after).take sessionIdSize := by
  obtain ⟨next, later, rfl⟩ := List.exists_cons_of_ne_nil more
  have shape : behindName beyond before cookie (next :: later) =
      cookie.value ++ 0x3b :: (0x20 :: next.text ++ following (later.map Cookie.text) ++
        if before.isEmpty then [] else [beyond]) := by
    simp [behindName, following]
  rw [shape, List.take_append, List.mem_append]
  refine Or.inr ?_
  obtain ⟨room, more⟩ := Nat.exists_eq_succ_of_ne_zero (Nat.sub_ne_zero_of_lt short)
  rw [more, List.take_succ_cons]
  exact List.mem_cons_self

variable {before}

theorem cutId_whole_iff (plain : ∀ other ∈ after, 0x3b ∉ other.value)
    (others : ∀ other ∈ before, other.name ≠ sessionName) (named : cookie.name = sessionName) :
    (∀ id, cutId (behindName beyond before cookie after) = some id →
      ∃ other ∈ before ++ cookie :: after, other.name = sessionName ∧ other.value = id) ↔
    (cookie.value.length = sessionIdSize ∨
      (cookie.value ++ following (after.map Cookie.text)).length + (if before.isEmpty then 0 else 1) < sessionIdSize ∨
      (sessionIdSize < cookie.value.length ∧
        ∃ later ∈ after, later.name = sessionName ∧ later.value = cookie.value.take sessionIdSize)) := by
  rw [← behindName_length beyond before]
  by_cases ends : (behindName beyond before cookie after).length < sessionIdSize
  · have nothing : cutId (behindName beyond before cookie after) = none := if_neg (Nat.not_le.mpr ends)
    simp [nothing, ends]
  have cut : cutId (behindName beyond before cookie after) =
      some ((behindName beyond before cookie after).take sessionIdSize) := if_pos (Nat.not_lt.mp ends)
  constructor
  · intro whole
    obtain ⟨other, member, otherNamed, value⟩ := whole _ cut
    have size : other.value.length = sessionIdSize := value ▸ cutId_length cut
    rcases List.mem_append.mp member with early | late
    · exact absurd otherNamed (others other early)
    rcases List.mem_cons.mp late with rfl | later
    · exact Or.inl size
    rcases Nat.lt_trichotomy cookie.value.length sessionIdSize with short | same | long
    · have separator := mem_behindName_take beyond before short (List.ne_nil_of_mem later)
      exact absurd (value ▸ separator) (plain other later)
    · exact Or.inl same
    · exact Or.inr (Or.inr ⟨long, other, later, otherNamed, value.trans (behindName_take beyond before (Nat.le_of_lt long))⟩)
  · intro whole id found
    rw [cut] at found
    cases found
    rcases whole with size | early | ⟨long, later, member, laterNamed, value⟩
    · refine ⟨cookie, by simp, named, ?_⟩
      rw [behindName_take beyond before size.ge, ← size, List.take_length]
    · exact absurd early ends
    · exact ⟨later, by simp [member], laterNamed, value.trans (behindName_take beyond before (Nat.le_of_lt long)).symm⟩

end

/-- The id that is looked up is the value of a cookie of the name exactly if the
first such cookie has a whole value. -/
theorem cookieSessionId_whole_iff (cookies : List Cookie) (plain : ∀ cookie ∈ cookies, 0x3b ∉ cookie.value)
    (beyond : UInt8) :
    (∀ id, cookieSessionId (cookieHeader (cookies.map Cookie.text)) beyond = some id →
      ∃ cookie ∈ cookies, cookie.name = sessionName ∧ cookie.value = id) ↔ WholeValue cookies := by
  constructor
  · intro whole before cookie after split named others
    subst split
    rw [cookieSessionId_of_scan (scanCookies_header beyond cookie after others named)] at whole
    exact (cutId_whole_iff beyond (fun other member => plain other (by simp [member])) others named).mp whole
  · intro whole
    cases first : cookies.find? fun cookie => decide (cookie.name = sessionName) with
    | none =>
        have others : ∀ cookie ∈ cookies, cookie.name ≠ sessionName := by
          simpa using List.find?_eq_none.mp first
        intro id found
        rw [cookieSessionId, scanCookies_unnamed beyond others] at found
        simp at found
    | some cookie =>
        obtain ⟨named, before, after, rfl, others⟩ := List.find?_eq_some_iff_append.mp first
        have named : cookie.name = sessionName := of_decide_eq_true named
        have others : ∀ other ∈ before, other.name ≠ sessionName := by simpa using others
        rw [cookieSessionId_of_scan (scanCookies_header beyond cookie after others named)]
        exact (cutId_whole_iff beyond (fun other member => plain other (by simp [member])) others named).mpr
          (whole before cookie after rfl named others)

theorem cookieSessionId_whole_issued :
    ∃ cookie ∈ [sessionCookie (repeatedDigest 0)],
      cookie.name = sessionName ∧ cookie.value = newSessionId (repeatedDigest 0) := by
  have alone : ∀ other ∈ ([] : List Cookie), other.name ≠ sessionName := by simp
  have found : cookieSessionId (cookieHeader ([sessionCookie (repeatedDigest 0)].map Cookie.text)) 0 =
      some (newSessionId (repeatedDigest 0)) :=
    (cookieSessionId_of_scan (scanCookies_header 0 (sessionCookie (repeatedDigest 0)) [] alone rfl)).trans (by decide)
  refine (cookieSessionId_whole_iff [sessionCookie (repeatedDigest 0)] (by decide) 0).mpr ?_ _ found
  intro before cookie after split _ _
  have only : cookie = sessionCookie (repeatedDigest 0) := by
    have member : cookie ∈ [sessionCookie (repeatedDigest 0)] := by simp [split]
    simpa using member
  rw [only]
  exact Or.inl (newSessionId_length _)

def repeatedCookie (count : Nat) : Cookie where
  name := sessionName
  value := List.replicate count 0x41
  name_plain := by decide
  value_plain := by simp [List.mem_replicate]

/-- A value of 33 bytes is cut off, one of 31 bytes is continued with the separator,
or with the byte behind the header. -/
theorem cookieSessionId_not_whole :
    (cookieSessionId (cookieHeader ([repeatedCookie 33].map Cookie.text)) 0 = some (List.replicate 32 0x41) ∧
      ∀ cookie ∈ [repeatedCookie 33], cookie.value ≠ List.replicate 32 0x41) ∧
    (cookieSessionId (cookieHeader ([repeatedCookie 31, plainCookie].map Cookie.text)) 0 =
        some (List.replicate 31 0x41 ++ [0x3b]) ∧
      ∀ cookie ∈ [repeatedCookie 31, plainCookie], cookie.value ≠ List.replicate 31 0x41 ++ [0x3b]) ∧
    (cookieSessionId (cookieHeader ([plainCookie, repeatedCookie 31].map Cookie.text)) 0 =
        some (List.replicate 31 0x41 ++ [0x00]) ∧
      ∀ cookie ∈ [plainCookie, repeatedCookie 31], cookie.value ≠ List.replicate 31 0x41 ++ [0x00]) := by
  have alone : ∀ other ∈ ([] : List Cookie), other.name ≠ sessionName := by simp
  have other : ∀ other ∈ [plainCookie], other.name ≠ sessionName := by decide
  refine ⟨⟨?_, by decide⟩, ⟨?_, by decide⟩, ⟨?_, by decide⟩⟩
  · exact (cookieSessionId_of_scan (scanCookies_header 0 (repeatedCookie 33) [] alone rfl)).trans (by decide)
  · exact (cookieSessionId_of_scan (scanCookies_header 0 (repeatedCookie 31) [plainCookie] alone rfl)).trans (by decide)
  · exact (cookieSessionId_of_scan (scanCookies_header 0 (repeatedCookie 31) [] other rfl)).trans (by decide)

end Webapp.Session
