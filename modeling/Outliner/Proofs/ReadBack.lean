import Mathlib
import Outliner.Session.Data
import Outliner.Proofs.Invariant

/-!
# Reading back what was written

The reader takes back every string the writer writes, whatever characters it holds: each
character is written either as itself, as a letter escape, or as a `\u` escape of four
lower-case hexadecimal digits, and every `\u` escape the writer makes is of a character below
the surrogates, which reads back as itself (`readStringBody_escapeChar`). An object whose
members all hold strings reads back from its compact text (`read?_write_textObject`).

A stored session record is such an object. Reading it back may still fail on its two times,
but when it succeeds it gives back the address, the session and the user that were written
(`SessionData.parse_text`).
-/

set_option autoImplicit false

namespace Outliner.Json

/-! ## Four hexadecimal digits -/

theorem hexValue_digitChar :
    ∀ k < 16, hexValue (Nat.digitChar k) = some (Text.hexDigitValue (Nat.digitChar k)) := by
  decide

theorem digitChar_of_mem_toDigits {n : Nat} {c : Char} (h : c ∈ Nat.toDigits 16 n) :
    ∃ k < 16, c = Nat.digitChar k := by
  induction n using Nat.strongRecOn with
  | _ n ih =>
    by_cases hn : n < 16
    · rw [Nat.toDigits_of_lt_base hn, List.mem_singleton] at h
      exact ⟨n, hn, h⟩
    · rw [Nat.toDigits_of_base_le (by decide) (by omega), List.mem_append, List.mem_singleton] at h
      rcases h with h | h
      · exact ih (n / 16) (by omega) h
      · exact ⟨n % 16, Nat.mod_lt _ (by decide), h⟩

theorem digitChar_of_mem_hexPadded {w n : Nat} {c : Char} (h : c ∈ (Text.hexPadded w n).toList) :
    ∃ k < 16, c = Nat.digitChar k := by
  simp only [Text.hexPadded, String.toList_ofList, List.mem_append, List.mem_replicate] at h
  rcases h with ⟨-, rfl⟩ | h
  · exact ⟨0, by decide, rfl⟩
  · exact digitChar_of_mem_toDigits h

theorem length_hexPadded {n : Nat} (hn : n < 16 ^ 4) : (Text.hexPadded 4 n).toList.length = 4 := by
  simp only [Text.hexPadded, String.toList_ofList, List.length_append, List.length_replicate]
  have : (Nat.toDigits 16 n).length ≤ 4 := (Nat.length_toDigits_le_iff (by decide) (by decide)).2 hn
  omega

theorem hex4_digits {cs : List Char} (hl : cs.length = 4)
    (hd : ∀ c ∈ cs, ∃ k < 16, c = Nat.digitChar k) (rest : List Char) :
    hex4 (cs ++ rest) = some (Text.hexValue cs, rest) := by
  have hv : ∀ x ∈ cs, hexValue x = some (Text.hexDigitValue x) := fun x hx => by
    obtain ⟨k, hk, rfl⟩ := hd x hx
    exact hexValue_digitChar k hk
  match cs, hl with
  | [a, b, c, d], _ =>
    simp [hex4, Text.hexValue, hv a (by simp), hv b (by simp), hv c (by simp), hv d (by simp)]
    omega

theorem hex4_hexPadded {n : Nat} (hn : n < 16 ^ 4) (rest : List Char) :
    hex4 ((Text.hexPadded 4 n).toList ++ rest) = some (n, rest) := by
  rw [hex4_digits (length_hexPadded hn) (fun _ => digitChar_of_mem_hexPadded), Text.hexValue_hexPadded]

/-! ## Strings -/

theorem unicodeEscape_of_lt {c : Char} (h : c.toNat < 0xD800) (rest : List Char) :
    unicodeEscape c.toNat rest = (c, rest) := by
  have hc : ¬ (0xD800 ≤ c.toNat ∧ c.toNat < 0xDC00) := by omega
  have hv : c.toNat.isValidChar := Or.inl h
  simp only [unicodeEscape, hc, ↓reduceIte, codeChar, hv, Char.ofNat_toNat]

theorem readStringBody_escapeChar (acc : List Char) (c : Char) (rest : List Char) :
    readStringBody acc ((escapeChar c).toList ++ rest) = readStringBody (c :: acc) rest := by
  unfold escapeChar
  split_ifs with h1 h2 h3 h4 h5 h6 h7 h8
  · subst h1; simp [readStringBody]
  · subst h2; simp [readStringBody]
  · subst h3; simp [readStringBody]
  · subst h4; simp [readStringBody]
  · subst h5; simp [readStringBody]
  · subst h6; simp [readStringBody]
  · subst h7; simp [readStringBody]
  · -- a `\u` escape, always of a character below the surrogates
    have hlt : c.toNat < 0xD800 := by
      simp only [Bool.or_eq_true, decide_eq_true_eq] at h8
      rcases h8 with ((((h | rfl) | rfl) | rfl) | h) | h
      all_goals first | omega | decide
    have hn : c.toNat < 16 ^ 4 := by omega
    simp only [String.toList_append, List.append_assoc]
    rw [show "\\u".toList = ['\\', 'u'] by decide, List.cons_append, List.cons_append, List.nil_append,
      readStringBody.eq_11]
    split
    · rename_i h
      rw [hex4_hexPadded hn] at h
      cases h
      simp only [unicodeEscape_of_lt hlt]
    · rename_i h
      rw [hex4_hexPadded hn] at h
      cases h
  · -- a character written as itself: neither a quote, a backslash nor a control
    have h32 : ¬ c.toNat < 32 := fun h => h8 (by simp [h])
    rw [show c.toString.toList = [c] by simp, List.cons_append, List.nil_append,
      readStringBody.eq_13 _ _ _ h1 (fun _ _ h _ => h2 h), if_neg h32]

theorem readStringBody_escaped (acc s rest : List Char) :
    readStringBody acc ((s.map escapeChar).flatMap String.toList ++ '"' :: rest) =
      some (String.ofList (acc.reverse ++ s), rest) := by
  induction s generalizing acc with
  | nil => simp [readStringBody]
  | cons c s ih =>
    rw [List.map_cons, List.flatMap_cons, List.append_assoc, readStringBody_escapeChar, ih]
    simp

theorem toList_writeString (s : String) :
    (writeString s).toList = '"' :: ((s.toList.map escapeChar).flatMap String.toList ++ ['"']) := by
  simp [writeString]

theorem readValue_writeString (fuel : Nat) (s : String) (rest : List Char) :
    readValue (fuel + 1) ((writeString s).toList ++ rest) = some (.str s, rest) := by
  rw [readValue.eq_2, toList_writeString]
  simp [skipWs, isWs, readStringBody_escaped]

theorem skipWs_writeString (s : String) (rest : List Char) :
    skipWs ((writeString s).toList ++ rest) = (writeString s).toList ++ rest := by
  simp [toList_writeString, skipWs, isWs]

/-! ## Objects whose members hold strings -/

theorem readMembers_last (f : Nat) (acc : List (String × Json)) (k v : String) (rest : List Char) :
    readMembers (f + 2) acc ((writeString k).toList ++ ':' :: ((writeString v).toList ++ '}' :: rest)) =
      some (((k, .str v) :: acc).reverse, rest) := by
  rw [readMembers.eq_2, skipWs_writeString, toList_writeString k]
  simp [skipWs, isWs, readStringBody_escaped, readValue_writeString]

theorem readMembers_next (f : Nat) (acc : List (String × Json)) (k v : String) (rest : List Char) :
    readMembers (f + 2) acc ((writeString k).toList ++ ':' :: ((writeString v).toList ++ ',' :: rest)) =
      readMembers (f + 1) ((k, .str v) :: acc) rest := by
  rw [readMembers.eq_2, skipWs_writeString, toList_writeString k]
  simp [skipWs, isWs, readStringBody_escaped, readValue_writeString]

/-- The members of an object whose members all hold strings. -/
def textMembers (ms : List (String × String)) : List (String × Json) := ms.map fun m => (m.1, .str m.2)

/-- An object whose members all hold strings. -/
def textObject (ms : List (String × String)) : Json := .obj (textMembers ms)

theorem toList_member (k v : String) :
    (writeString k ++ ":" ++ write (.str v)).toList =
      (writeString k).toList ++ ':' :: (writeString v).toList := by
  simp [write]

theorem toList_member_comma (k v w : String) :
    (writeString k ++ ":" ++ write (.str v) ++ "," ++ w).toList =
      (writeString k).toList ++ ':' :: ((writeString v).toList ++ ',' :: w.toList) := by
  simp [write]

theorem readMembers_written (fuel : Nat) (acc : List (String × Json)) (ms : List (String × String))
    (hne : ms ≠ []) (hf : ms.length < fuel) (rest : List Char) :
    readMembers fuel acc ((writeMembers (textMembers ms)).toList ++ '}' :: rest) =
      some (acc.reverse ++ textMembers ms, rest) := by
  induction ms generalizing acc fuel with
  | nil => exact absurd rfl hne
  | cons m ms ih =>
    obtain ⟨f, rfl⟩ : ∃ f, fuel = f + 2 := ⟨fuel - 2, by simp at hf; omega⟩
    cases ms with
    | nil =>
      rw [textMembers, List.map_cons, List.map_nil, writeMembers.eq_2, toList_member,
        List.append_assoc, List.cons_append, readMembers_last]
      simp
    | cons m' ms =>
      rw [textMembers, List.map_cons, writeMembers.eq_3 _ _ _ (by simp), toList_member_comma]
      simp only [List.append_assoc, List.cons_append]
      rw [readMembers_next, ← textMembers, ih (f + 1) _ (by simp) (by simp at hf ⊢; omega)]
      simp [textMembers]

theorem length_writeMembers (ms : List (String × String)) :
    ms.length ≤ (writeMembers (textMembers ms)).toList.length := by
  induction ms with
  | nil => simp
  | cons m ms ih =>
    cases ms with
    | nil => simp [textMembers, writeMembers, toList_writeString]
    | cons m' ms =>
      rw [textMembers, List.map_cons, writeMembers.eq_3 _ _ _ (by simp), toList_member_comma,
        ← textMembers]
      simp only [List.length_append, List.length_cons] at ih ⊢
      omega

theorem read?_write_textObject (ms : List (String × String)) :
    read? (write (textObject ms)) = some (textObject ms) := by
  unfold read? readPrefix
  cases ms with
  | nil => simp [textObject, textMembers, write, writeMembers, readValue, skipWs, isWs]
  | cons m ms =>
    have hlen := length_writeMembers (m :: ms)
    have htext : (write (textObject (m :: ms))).toList =
        '{' :: ((writeMembers (textMembers (m :: ms))).toList ++ ['}']) := by
      simp [textObject, write]
    -- the members start with the quote of the first name
    obtain ⟨w, hw⟩ : ∃ w, (writeMembers (textMembers (m :: ms))).toList = '"' :: w := by
      cases ms with
      | nil =>
        rw [textMembers, List.map_cons, List.map_nil, writeMembers.eq_2, toList_member,
          toList_writeString]
        exact ⟨_, rfl⟩
      | cons m' ms =>
        rw [textMembers, List.map_cons, writeMembers.eq_3 _ _ _ (by simp), toList_member_comma,
          toList_writeString]
        exact ⟨_, rfl⟩
    have hsize : (write (textObject (m :: ms))).length =
        (writeMembers (textMembers (m :: ms))).toList.length + 2 := by
      rw [← String.length_toList, htext]
      simp
    obtain ⟨f, hf⟩ : ∃ f, 2 * (write (textObject (m :: ms))).length + 2 = f + 1 := ⟨_, rfl⟩
    have hread : readMembers f [] ((writeMembers (textMembers (m :: ms))).toList ++ ['}']) =
        some (textMembers (m :: ms), []) := by
      rw [readMembers_written f [] _ (by simp) (by omega) []]
      simp
    rw [hw, List.cons_append] at hread
    rw [hf, readValue.eq_2, htext, hw]
    simp [skipWs, isWs, hread, textObject]

end Outliner.Json

namespace Outliner.Session

open Json Time

theorem SessionData.toJson_eq (d : SessionData) :
    d.toJson = textObject [("ip", d.ip), ("session_id", d.sessionId),
      ("time_created", d.created.text), ("time_last_login", d.lastLogin.text), ("user_id", d.userId)] :=
  rfl

theorem SessionData.read?_text (d : SessionData) : Json.read? d.text = some d.toJson := by
  rw [SessionData.text, SessionData.toJson_eq, read?_write_textObject]

theorem SessionData.ofJson_toJson (d : SessionData) :
    SessionData.ofJson d.toJson = (do
      let created ← Instant.read d.created.text
      let lastLogin ← Instant.read d.lastLogin.text
      pure ⟨d.ip, d.sessionId, created, lastLogin, d.userId⟩) := by
  simp +decide [SessionData.ofJson, SessionData.toJson, List.foldlM, readMember, readText, readTime]

theorem SessionData.parse_text {d d' : SessionData} (h : SessionData.parse d.text = .ok d') :
    d'.ip = d.ip ∧ d'.sessionId = d.sessionId ∧ d'.userId = d.userId := by
  unfold SessionData.parse at h
  split at h
  · cases h
  · rw [SessionData.read?_text] at h
    dsimp only at h
    rw [SessionData.ofJson_toJson] at h
    cases hc : Instant.read d.created.text with
    | error e =>
      rw [hc] at h
      cases h
    | ok c =>
      cases hl : Instant.read d.lastLogin.text with
      | error e =>
        rw [hc, hl] at h
        cases h
      | ok l =>
        simp only [hc, hl] at h
        cases h
        exact ⟨rfl, rfl, rfl⟩

end Outliner.Session
