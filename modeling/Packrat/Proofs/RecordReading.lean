import Packrat.Proofs.JsonGrammar
import Packrat.Record

/-!
# Records in an object

A package reads a record from an object in steps: one key after the other, and behind each key
the value of a field, or a value that nobody asked for. Nothing is known here of a package but the
laws of its steps, which are what is documented of such packages. Each law is about one place of an
object, whatever stands behind it; what becomes of an object as a whole follows from them.

* `Record.Steps`: the steps of a package.
* `Steps.ReadsJson`, `Steps.FillsRecord`, `Package.TakesSteps`: the laws.
* `Declaration.Describes`: the values that the members of an object give.
* `Record.Left`, `Record.Pending`: what members still give while an object is read.
* `Steps.exists_member_eq`, `Steps.exists_members_eq`: **one member, and from it all of them**;
  what is given so far and what is left make up the record at every comma.
* `Package.fromText_of_describes`: a record is what the members of its object give.
-/

namespace Packrat.Record

open Json

/-! ### How values are written -/

section Written

variable {α : Type}

/-- A truth value as it is written. -/
def IsFlag (value : List Char) (flag : Bool) : Prop :=
  value = if flag then ['t', 'r', 'u', 'e'] else ['f', 'a', 'l', 's', 'e']

/-- A variant as it is written: a string that spells its name. -/
def IsNamed (name : α → String) (value : List Char) (variant : α) : Prop :=
  ∃ written, value = '"' :: (written ++ ['"']) ∧ Spells written (name variant).toList

/-- A value of a kind as it is written. -/
def Kind.Writes : {α : Type} → Kind α → List Char → α → Prop
  | _, .flag => IsFlag
  | _, .choice name _ => IsNamed name

/-- What stands in front of a key: nothing where it is the first one of its object, and a comma
with or without white space where it is not. -/
def Leads (first : Bool) (ahead : List Char) : Prop :=
  if first then ahead = [] else ∃ ws, Blank ws ∧ ahead = ws ++ [',']

/-- What stands behind a value of an object: white space up to a comma or the closing brace. -/
def Delimited (more : List Char) : Prop :=
  ∃ ws mark behind, Blank ws ∧ (mark = ',' ∨ mark = '}') ∧ more = ws ++ mark :: behind

end Written

/-! ### Steps of a package, and their laws -/

/-- The steps in which a package reads a record from an object. `Rest` is what it keeps of a text
that is still to be read. -/
structure Steps (ε : Type) {Field : Type} (declaration : Declaration Field) where
  Rest : Type
  /-- What is kept where these characters are left. -/
  rest : List Char → Rest
  /-- Goes into an object. -/
  enter : Rest → Except ε Rest
  /-- The first or the next key of an object; none where the object is closed here. -/
  nextKey (first : Bool) : Rest → Except ε (Option String × Rest)
  /-- The value of a field, from behind its key. -/
  value (field : Field) : Rest → Except ε (declaration.Value field × Rest)
  /-- Passes over a value, from behind its key. -/
  ignored : Rest → Except ε Rest
  /-- A member, from behind its key, where some fields are given already. -/
  member (given : declaration.Given) (key : String) : Rest → Except ε (declaration.Given × Rest)
  /-- All members that are left of an object. -/
  members (first : Bool) (given : declaration.Given) : Rest → Except ε (declaration.Given × Rest)
  /-- Makes sure that a text is at its end. -/
  finish : Rest → Except ε Unit

section Laws

variable {ε Field : Type} {declaration : Declaration Field}

/-- **The steps go by the grammar of JSON.** White space is allowed wherever the grammar has it. -/
structure Steps.ReadsJson (steps : Steps ε declaration) : Prop where
  /-- An object begins with a brace. -/
  enter_eq {before more : List Char} : Blank before →
    steps.enter (steps.rest (before ++ '{' :: more)) = .ok (steps.rest more)
  /-- A key is the text that its string spells. -/
  nextKey_eq {first : Bool} {ahead before written more : List Char} {key : String} :
    Leads first ahead → Blank before → Spells written key.toList →
    steps.nextKey first (steps.rest (ahead ++ (before ++ '"' :: (written ++ '"' :: more)))) =
      .ok (some key, steps.rest more)
  /-- An object ends with a brace. -/
  nextKey_close {first : Bool} {ws more : List Char} : Blank ws →
    steps.nextKey first (steps.rest (ws ++ '}' :: more)) = .ok (none, steps.rest more)
  /-- The value of a field is read as its kind is written. -/
  value_eq {field : Field} {behind ahead value more : List Char} {a : declaration.Value field} :
    Blank behind → Blank ahead → (declaration.kind field).Writes value a → Delimited more →
    steps.value field (steps.rest (behind ++ ':' :: (ahead ++ (value ++ more)))) =
      .ok (a, steps.rest more)
  /-- Any value is passed over, to any depth of nesting. -/
  ignored_eq {behind ahead value more : List Char} : Blank behind → Blank ahead →
    Derives .value value → Delimited more →
    steps.ignored (steps.rest (behind ++ ':' :: (ahead ++ (value ++ more)))) =
      .ok (steps.rest more)
  /-- A text may end with white space. -/
  finish_eq {ws : List Char} : Blank ws → steps.finish (steps.rest ws) = .ok ()

/-- **The steps fill a record** as it is declared, member by member. -/
structure Steps.FillsRecord [DecidableEq Field] (steps : Steps ε declaration) : Prop where
  /-- A member with the name of a field not given so far gives it. -/
  member_field {given : declaration.Given} {field : Field} {value : declaration.Value field}
    {r r' : steps.Rest} : given field = none → steps.value field r = .ok (value, r') →
    steps.member given (declaration.name field) r = .ok (given.give field value, r')
  /-- A member with the name of no field is passed over. -/
  member_other {given : declaration.Given} {key : String} {r r' : steps.Rest} :
    (∀ field, declaration.name field ≠ key) → steps.ignored r = .ok r' →
    steps.member given key r = .ok (given, r')
  /-- No members are left where no key is. -/
  members_close {first : Bool} {given : declaration.Given} {r r' : steps.Rest} :
    steps.nextKey first r = .ok (none, r') → steps.members first given r = .ok (given, r')
  /-- A member is read, and then what is left. -/
  members_next {first : Bool} {given given' : declaration.Given} {key : String}
    {r r' r'' : steps.Rest} :
    steps.nextKey first r = .ok (some key, r') → steps.member given key r' = .ok (given', r'') →
    steps.members first given r = steps.members false given' r''

/-- **A package takes these steps** from the beginning of a text to its end, and then puts in the
defaults. -/
structure Package.TakesSteps (package : Package ε declaration) (steps : Steps ε declaration) :
    Prop where
  fromText_eq {text : String} {inside behind : steps.Rest} {given : declaration.Given} :
    steps.enter (steps.rest text.toList) = .ok inside →
    steps.members true declaration.nothing inside = .ok (given, behind) →
    steps.finish behind = .ok () → package.fromText text = .ok (declaration.complete given)

end Laws

/-! ### What members say -/

variable {members more : List Member} {m : Member}

section Gives

variable {α : Type} {key : String} {Means : List Char → α → Prop} {default a : α}

/-- What members give for a field: its default, when no member has its name for a key, and
otherwise what the value of the only member that has it means. -/
def Gives (members : List Member) (key : String) (Means : List Char → α → Prop)
    (default a : α) : Prop :=
  match members.filter (·.key = key) with
  | [] => a = default
  | [m] => Means m.value a
  | _ => False

theorem Gives.of_perm (h : Gives members key Means default a)
    (hp : (more.filter (·.key = key)).Perm (members.filter (·.key = key))) :
    Gives more key Means default a := by
  unfold Gives at h ⊢
  split at h
  · next hm => rw [hm] at hp; rw [hp.eq_nil]; exact h
  · next hm => rw [hm] at hp; rw [hp.eq_singleton]; exact h
  · exact h.elim

/-- What members give for a field that is given or not so far: nothing more when it is, and all
when it is not. -/
def Left (given? : Option α) (members : List Member) (key : String)
    (Means : List Char → α → Prop) (default a : α) : Prop :=
  match given? with
  | none => Gives members key Means default a
  | some b => b = a ∧ ∀ m ∈ members, m.key ≠ key

variable {given? : Option α}

/-- A member with another key says nothing of a field. -/
theorem Left.of_ne (h : Left given? (m :: members) key Means default a) (hm : m.key ≠ key) :
    Left given? members key Means default a := by
  cases given? with
  | none => simpa [Left, Gives, hm] using h
  | some b => exact ⟨h.1, fun m' hm' => h.2 m' (List.mem_cons_of_mem _ hm')⟩

/-- A member with the name of a field says what it is, and is the only one. -/
theorem Left.of_eq (h : Left given? (m :: members) key Means default a) (hm : m.key = key) :
    given? = none ∧ Means m.value a ∧ Left (some a) members key Means default a := by
  cases given? with
  | some b => exact absurd hm (h.2 m List.mem_cons_self)
  | none =>
    have hfilter : (m :: members).filter (·.key = key) =
        m :: members.filter (·.key = key) := by
      simp [hm]
    rw [Left, Gives, hfilter] at h
    cases hrest : members.filter (·.key = key) with
    | nil =>
      rw [hrest] at h
      exact ⟨rfl, h, rfl, fun m' hm' => by simpa using List.filter_eq_nil_iff.1 hrest m' hm'⟩
    | cons m' members' => rw [hrest] at h; exact h.elim

/-- With no members left, a field is what was given, or its default. -/
theorem Left.getD_eq (h : Left given? [] key Means default a) : given?.getD default = a := by
  cases given? with
  | none => exact h.symm
  | some b => exact h.1

end Gives

variable {ε Field : Type} {declaration : Declaration Field} {values : declaration.Values}
  {given : declaration.Given}

/-- The values that the members of an object give. -/
def Declaration.Describes (declaration : Declaration Field) (members : List Member)
    (values : declaration.Values) : Prop :=
  ∀ field, Gives members (declaration.name field) (declaration.kind field).Writes
    (declaration.default field) (values field)

/-- What was given so far and what members still give make up the values. -/
def Pending (given : declaration.Given) (members : List Member) (values : declaration.Values) :
    Prop :=
  ∀ field, Left (given field) members (declaration.name field) (declaration.kind field).Writes
    (declaration.default field) (values field)

theorem Pending.complete_eq (h : Pending given [] values) : declaration.complete given = values :=
  funext fun field => (h field).getD_eq

/-! ### Members -/

theorem Delimited.of_mark {ws : List Char} {mark : Char} (hws : Blank ws)
    (hmark : mark = ',' ∨ mark = '}') (behind : List Char) : Delimited (ws ++ mark :: behind) :=
  ⟨ws, mark, behind, hws, hmark, rfl⟩

variable [DecidableEq Field] {steps : Steps ε declaration}

/-- **One member is read**, from behind its key: what is given so far and what is left still make
up the values. -/
theorem Steps.exists_member_eq (hread : steps.ReadsJson) (hfill : steps.FillsRecord)
    (hp : Pending given (m :: members) values) {behind ahead rest : List Char}
    (hbehind : Blank behind) (hahead : Blank ahead) (hvalue : Derives .value m.value)
    (hrest : Delimited rest) :
    ∃ given',
      steps.member given m.key (steps.rest (behind ++ ':' :: (ahead ++ (m.value ++ rest)))) =
        .ok (given', steps.rest rest) ∧
      Pending given' members values := by
  by_cases hkey : ∃ field, declaration.name field = m.key
  · obtain ⟨field, hname⟩ := hkey
    obtain ⟨hnone, hwritten, hleft⟩ := (hp field).of_eq hname.symm
    refine ⟨given.give field (values field), ?_, fun other => ?_⟩
    · rw [← hname]
      exact hfill.member_field hnone (hread.value_eq hbehind hahead hwritten hrest)
    · by_cases ho : other = field
      · subst ho
        rw [Declaration.Given.give_self]
        exact hleft
      · rw [Declaration.Given.give_of_ne _ ho]
        exact (hp other).of_ne fun h => ho (declaration.name_injective (h.symm.trans hname.symm))
  · have hother : ∀ field, declaration.name field ≠ m.key := not_exists.1 hkey
    exact ⟨given, hfill.member_other hother (hread.ignored_eq hbehind hahead hvalue hrest),
      fun field => (hp field).of_ne (hother field).symm⟩

/-- A member at the head of those that are left, with what is behind it: the others are left. -/
theorem Steps.exists_members_next (hread : steps.ReadsJson) (hfill : steps.FillsRecord)
    {first : Bool} {ahead w : List Char} (hahead : Leads first ahead) (h : IsMember w m)
    (hp : Pending given (m :: members) values) {mark : Char} (hmark : mark = ',' ∨ mark = '}')
    (behind : List Char) :
    ∃ given' ws, Blank ws ∧ Pending given' members values ∧
      steps.members first given (steps.rest (ahead ++ (w ++ mark :: behind))) =
        steps.members false given' (steps.rest (ws ++ mark :: behind)) := by
  cases h with
  | @mk _ _ _ _ _ ws _ hbefore hkey hbehind hinside hvalue hws =>
    obtain ⟨given', hmember, hp⟩ :=
      exists_member_eq hread hfill hp hbehind hinside hvalue (.of_mark hws hmark behind)
    refine ⟨given', ws, hws, hp, ?_⟩
    simp only [List.append_assoc, List.cons_append]
    exact hfill.members_next (hread.nextKey_eq hahead hbefore hkey) hmember

/-- **All members are read**, from the first to the closing brace. -/
theorem Steps.exists_members_eq (hread : steps.ReadsJson) (hfill : steps.FillsRecord)
    {first : Bool} {ahead w : List Char} (hahead : Leads first ahead) (h : AreMembers w members)
    (hp : Pending given members values) (behind : List Char) :
    ∃ final,
      steps.members first given (steps.rest (ahead ++ (w ++ '}' :: behind))) =
        .ok (final, steps.rest behind) ∧
      declaration.complete final = values := by
  -- What is behind a member is either the closing brace or a comma, which leads the next one.
  induction h generalizing first ahead given with
  | last h =>
    obtain ⟨given', ws, hws, hp, hnext⟩ :=
      exists_members_next hread hfill hahead h hp (.inr rfl) behind
    exact ⟨given', hnext.trans (hfill.members_close (hread.nextKey_close hws)), hp.complete_eq⟩
  | @more w more m members h _ ih =>
    obtain ⟨given', ws, hws, hp, hnext⟩ :=
      exists_members_next hread hfill hahead h hp (.inl rfl) (more ++ '}' :: behind)
    have hlead : Leads false (ws ++ [',']) := ⟨ws, hws, rfl⟩
    obtain ⟨final, hmembers, hfinal⟩ := ih hlead hp
    refine ⟨final, ?_, hfinal⟩
    rw [List.append_assoc, List.cons_append, hnext, ← hmembers, List.append_assoc,
      List.singleton_append]

/-! ### Objects -/

/-- **A record is what the members of its object give**, by whatever package it is read. -/
theorem Package.fromText_of_describes {package : Package ε declaration} (hread : steps.ReadsJson)
    (hfill : steps.FillsRecord) (htake : package.TakesSteps steps) {text : String}
    (ht : IsObject text.toList members) (hd : declaration.Describes members values) :
    package.fromText text = .ok values := by
  have hp : Pending declaration.nothing members values := hd
  generalize hw : text.toList = w at ht
  cases ht with
  | @empty before inside behind hbefore hinside hbehind =>
    rw [← hp.complete_eq]
    refine htake.fromText_eq ?_ (hfill.members_close (hread.nextKey_close hinside))
      (hread.finish_eq hbehind)
    rw [hw]
    exact hread.enter_eq hbefore
  | @full before w behind _ hbefore h hbehind =>
    have hfirst : Leads true [] := rfl
    obtain ⟨final, hmembers, hfinal⟩ := Steps.exists_members_eq hread hfill hfirst h hp behind
    rw [← hfinal]
    refine htake.fromText_eq ?_ hmembers (hread.finish_eq hbehind)
    rw [hw]
    exact hread.enter_eq hbefore

end Packrat.Record
