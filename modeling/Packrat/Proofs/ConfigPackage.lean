import Packrat.Config.Reader
import Packrat.Proofs.JsonSkipping
import Packrat.Proofs.RecordReading
import Packrat.Proofs.Run

/-!
# The laws of the package for settings

The package that programs are run with keeps all the laws that are asked of one, for every text.
So there are packages for which everything holds that is proved of loading settings.

* `Config.steps`: its steps, over the bytes that are still to be read.
* `Config.steps_readsJson`, `Config.steps_fillsRecord`, `Config.package_takesSteps`: **its laws**.
-/

namespace Packrat.Config

open Json Record

variable {given given' : declaration.Given} {key : String} {first : Bool} {s r rest : Bytes}

/-- Goes into an object. -/
def readOpening (s : Bytes) : Except ConfigDefect Bytes :=
  match skipBlanks s with
  | [] => .error (.json .endInValue)
  | Byte.openBrace :: rest => .ok rest
  | first :: rest => refuse .settings first rest

/-- The steps of the package. -/
def steps : Steps ConfigDefect declaration where
  Rest := Bytes
  rest := encode
  enter := readOpening
  nextKey := readKey
  value := readValue
  ignored := readIgnored
  member := readMember
  members := readMembers
  finish := readEnd

/-! ### Keys -/

theorem readOpenedKey_encode {written : List Char} (hkey : Spells written key.toList) (s : Bytes) :
    readOpenedKey (encode written ++ Byte.of '"' :: s) = .ok (some key, s) := by
  rw [readOpenedKey, readText_encode hkey, json, ok_bind]
  rfl

theorem readKey_encode {ahead before written : List Char} (hahead : Leads first ahead)
    (hbefore : Blank before) (hkey : Spells written key.toList) (s : Bytes) :
    readKey first (encode ahead ++ (encode before ++
      Byte.of '"' :: (encode written ++ Byte.of '"' :: s))) = .ok (some key, s) := by
  cases first with
  | true =>
    obtain rfl : ahead = [] := hahead
    change readFirstKey (encode before ++ _) = _
    rw [readFirstKey, skipBlanks_encode hbefore]
    exact readOpenedKey_encode hkey s
  | false =>
    obtain ⟨ws, hws, rfl⟩ : ∃ ws, Blank ws ∧ ahead = ws ++ [','] := hahead
    rw [encode_append, List.append_assoc]
    change readNextKey (encode ws ++ Byte.of ',' :: (encode before ++ _)) = _
    rw [readNextKey, skipBlanks_encode hws]
    change readKeyBehindComma (encode before ++ _) = _
    rw [readKeyBehindComma, skipBlanks_encode hbefore]
    exact readOpenedKey_encode hkey s

theorem readKey_closeBrace {ws : List Char} (hws : Blank ws) (s : Bytes) :
    readKey first (encode ws ++ Byte.of '}' :: s) = .ok (none, s) := by
  cases first with
  | true =>
    change readFirstKey _ = _
    rw [readFirstKey, skipBlanks_encode hws]
    rfl
  | false =>
    change readNextKey _ = _
    rw [readNextKey, skipBlanks_encode hws]
    rfl

/-! ### Values -/

theorem readColon_encode {ws : List Char} (hws : Blank ws) (s : Bytes) :
    readColon (encode ws ++ Byte.of ':' :: s) = .ok s := by
  rw [readColon, skipBlanks_encode hws]
  rfl

theorem readFlag_encode {ws value : List Char} {flag : Bool} (hws : Blank ws)
    (hv : IsFlag value flag) (s : Bytes) :
    readFlag (encode ws ++ (encode value ++ s)) = .ok (flag, s) := by
  rw [readFlag, skipBlanks_encode hws, hv]
  cases flag <;> rfl

theorem modeNamed_name (mode : Mode) : modeNamed mode.name = .ok mode := by
  rw [modeNamed, Mode.ofName?_name]

theorem readMode_encode {ws value : List Char} {mode : Mode} (hws : Blank ws)
    (hv : IsNamed Mode.name value mode) (s : Bytes) :
    readMode (encode ws ++ (encode value ++ s)) = .ok (mode, s) := by
  obtain ⟨name, rfl, hname⟩ := hv
  rw [readMode, skipBlanks_encode hws, encode_within (by decide) (by decide)]
  change (json (readText (encode name ++ Byte.of '"' :: s)) >>= fun read =>
    modeNamed read.1 >>= fun mode => pure (mode, read.2)) = _
  rw [readText_encode hname, json, ok_bind, modeNamed_name]
  rfl

theorem readValue_encode {field : ConfigField} {behind ahead value : List Char}
    {a : declaration.Value field} (hbehind : Blank behind) (hahead : Blank ahead)
    (hv : (declaration.kind field).Writes value a) (s : Bytes) :
    readValue field (encode behind ++ Byte.of ':' :: (encode ahead ++ (encode value ++ s))) =
      .ok (a, s) := by
  cases field with
  | memoize =>
    rw [readValue, readColon_encode hbehind, ok_bind]
    exact readFlag_encode hahead hv s
  | defaultMode =>
    rw [readValue, readColon_encode hbehind, ok_bind]
    exact readMode_encode hahead hv s

/-- What ends a value ends a number. -/
theorem ends_of_delimited {more : List Char} (h : Delimited more) : Ends (encode more) := by
  obtain ⟨ws, mark, behind, hws, hmark, rfl⟩ := h
  rw [encode_append]
  refine Ends.blank hws ?_
  rcases hmark with rfl | rfl
  · exact ends_cons (b := Byte.of ',') (by decide) _
  · exact ends_cons (b := Byte.of '}') (by decide) _

theorem readIgnored_encode {behind ahead value : List Char} (hbehind : Blank behind)
    (hahead : Blank ahead) (hv : Derives .value value) (hs : Ends s) :
    readIgnored (encode behind ++ Byte.of ':' :: (encode ahead ++ (encode value ++ s))) =
      .ok s := by
  rw [readIgnored, readColon_encode hbehind, ok_bind, skipValue_congr (skipBlanks_encode hahead _),
    hv.skipped [] s hs, skipAfterValue]
  rfl

/-- **The package reads JSON.** -/
theorem steps_readsJson : steps.ReadsJson where
  enter_eq {before more} hbefore := by
    change readOpening (encode (before ++ '{' :: more)) = .ok (encode more)
    rw [readOpening, encode_append, skipBlanks_encode hbefore]
    rfl
  nextKey_eq {first ahead before written more key} hahead hbefore hkey := by
    change readKey first (encode _) = .ok (some key, encode more)
    simp only [encode_cons, encode_append]
    exact readKey_encode hahead hbefore hkey _
  nextKey_close {first ws more} hws := by
    change readKey first (encode _) = .ok (none, encode more)
    simp only [encode_cons, encode_append]
    exact readKey_closeBrace hws _
  value_eq {field behind ahead value more a} hbehind hahead hv _ := by
    change readValue field (encode _) = .ok (a, encode more)
    simp only [encode_cons, encode_append]
    exact readValue_encode hbehind hahead hv _
  ignored_eq {behind ahead value more} hbehind hahead hv hmore := by
    change readIgnored (encode _) = .ok (encode more)
    simp only [encode_cons, encode_append]
    exact readIgnored_encode hbehind hahead hv (ends_of_delimited hmore)
  finish_eq {ws} hws := by
    change readEnd (encode ws) = .ok ()
    have hend : skipBlanks (encode ws) = [] := by
      simpa [skipBlanks] using skipBlanks_encode hws []
    rw [readEnd, hend]
    rfl

/-! ### Members -/

theorem fieldNamed?_name (field : ConfigField) : fieldNamed? field.name = some field := by
  cases field <;> simp [fieldNamed?, ConfigField.name]

theorem fieldNamed?_eq_none (h : ∀ field : ConfigField, field.name ≠ key) :
    fieldNamed? key = none := by
  have hmemoize : key ≠ "memoize" := (h .memoize).symm
  have hmode : key ≠ "default_mode" := (h .defaultMode).symm
  simp [fieldNamed?, hmemoize, hmode]

theorem readMembers_close (h : readKey first s = .ok (none, r)) :
    readMembers first given s = .ok (given, r) := by
  rw [readMembers]
  split
  · next hk => rw [h] at hk; cases hk
  · next hk => rw [h] at hk; cases hk; rfl
  · next hk => rw [h] at hk; cases hk

theorem readMembers_next (hkey : readKey first s = .ok (some key, r))
    (hmember : readMember given key r = .ok (given', rest)) :
    readMembers first given s = readMembers false given' rest := by
  rw [readMembers]
  split
  · next hk => rw [hkey] at hk; cases hk
  · next hk => rw [hkey] at hk; cases hk
  · next hk =>
    rw [hkey] at hk
    cases hk
    split
    · next hm => rw [hmember] at hm; cases hm
    · next hm => rw [hmember] at hm; cases hm; rfl

/-- **The package fills a record.** -/
theorem steps_fillsRecord : steps.FillsRecord where
  member_field {given field value r r'} hnone hvalue := by
    change readMember given field.name r = .ok (given.give field value, r')
    have hread : readValue field r = .ok (value, r') := hvalue
    simp only [readMember, fieldNamed?_name, hnone, Option.isSome_none, Bool.false_eq_true,
      if_false, hread, ok_bind]
    rfl
  member_other {given key r r'} hother hignored := by
    change readMember given key r = .ok (given, r')
    have hread : readIgnored r = .ok r' := hignored
    simp only [readMember, fieldNamed?_eq_none hother, hread]
    rfl
  members_close := readMembers_close
  members_next := readMembers_next

/-! ### Texts -/

theorem skipBlanks_of_readOpening (h : readOpening s = .ok r) :
    skipBlanks s = Byte.openBrace :: r := by
  unfold readOpening at h
  split at h
  · cases h
  · next hs => cases h; exact hs
  · exact absurd h refuse_ne_ok

/-- **The package takes these steps.** -/
theorem package_takesSteps : package.TakesSteps steps where
  fromText_eq {text inside behind given} henter hmembers hfinish := by
    change ofBytes (bytesOf text) = .ok (declaration.complete given)
    have hopen : skipBlanks (encode text.toList) = Byte.openBrace :: inside :=
      skipBlanks_of_readOpening henter
    have hread : readSettings (encode text.toList) = .ok (given, behind) := by
      rw [readSettings, hopen]
      exact hmembers
    have hend : readEnd behind = .ok () := hfinish
    rw [bytesOf_eq, ofBytes, hread, ok_bind]
    dsimp only
    rw [hend]
    rfl

end Packrat.Config
