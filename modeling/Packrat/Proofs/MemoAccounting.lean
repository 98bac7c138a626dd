import Mathlib.Data.List.DropRight
import Packrat.Proofs.AuditedSessions

/-!
# Memo accounting

What a table holds, and how often its rules were settled and found, follows from the calls made
since it was last cleared.

* `AuditedSession.Kept`: what the ledger of a session says of the calls made on it.
* `Kept.next`: **one call** keeps the books; `exists_kept`: **so do any calls** on an empty table.
* `Kept.again`, `Kept.misses_le`: what a call can add to the table.
* `Built.memo_accounting`: **each rule is settled once at most** at an offset and in a mode.
-/

namespace Packrat

open Evaluation

variable {grammar : Grammar} {input : Input} {call : Session.Call}

namespace AuditedSession

variable {audited : AuditedSession} {calls : List Session.Call} {table : Memo.Table}

/-- The function tells for each call how many rules it asks for directly. -/
def CountsAsked (grammar : Grammar) (input : Input) (asked : Session.Call → Nat) : Prop :=
  ∀ call survey, grammar.survey input call = .ok survey → asked call = survey.direct.length

/-- **The books of a session**, after the calls made since its table was empty: the table is in
order, it holds the keys that the calls ask for, and what was asked for is what the calls asked for
and what the rules that were settled did. -/
structure Kept (grammar : Grammar) (input : Input) (calls : List Session.Call)
    (audited : AuditedSession) (table : Memo.Table) : Prop where
  session_eq : audited.session = ⟨grammar, input, some table⟩
  inOrder : Memo.InOrder grammar.arena input table audited.ledger
  mem_iff : ∀ key, key ∈ table.entries ↔
    ∃ call ∈ calls, ∃ survey, grammar.survey input call = .ok survey ∧ key ∈ survey.all
  asked_eq : ∀ asked lookups, CountsAsked grammar input asked →
    grammar.arena.CountsLookups input lookups →
      audited.ledger.asked = (calls.map asked).sum + audited.ledger.lookups lookups

/-- The books of a session whose table is empty. -/
theorem kept_nil (grammar : Grammar) (input : Input) :
    Kept grammar input [] (Session.mk grammar input (some .empty)).audited .empty := by
  refine ⟨rfl, Memo.inOrder_empty grammar.arena input, fun key => ?_, fun _ _ _ _ => rfl⟩
  simp [Memo.Table.empty]

/-- A call accounts for what it asks for. -/
theorem call_accounts {ledger : Memo.Ledger}
    (horder : Memo.InOrder grammar.arena input table ledger) (hclear : call ≠ .clear)
    {survey : Survey} (hsurvey : grammar.survey input call = .ok survey) :
    ∃ farthest after,
      (AuditedSession.mk ⟨grammar, input, some table⟩ ledger).call call =
        ⟨⟨grammar, input, some after.progress.table⟩, after.ledger⟩ ∧
      Accounts grammar.arena input survey ⟨⟨farthest, table⟩, ledger⟩ after := by
  unfold Grammar.survey at hsurvey
  cases htarget : grammar.target? input call with
  | none =>
    rw [htarget] at hsurvey
    cases hsurvey
    refine ⟨0, ⟨⟨0, table⟩, ledger⟩, ?_, .nothing horder 0⟩
    unfold AuditedSession.call
    simp only [htarget, if_neg hclear]
  | some target =>
    simp only [htarget] at hsurvey
    split at hsurvey
    · cases hsurvey
    · rename_i outcome asked hnode
      cases hsurvey
      obtain ⟨after, hrun, haccounts⟩ := evalNode_accounts _ target.node target.start
        ⟨⟨target.start, table⟩, ledger⟩ outcome survey horder hnode
      refine ⟨target.start, after, ?_, haccounts⟩
      have hrun : (Evaluation.node grammar.arena input target.mode target.node target.start :
          Audited Outcome).run ⟨⟨target.start, table⟩, ledger⟩ = .ok (outcome, after) := hrun
      unfold AuditedSession.call evaluate
      simp only [htarget, hrun]

/-- **One call keeps the books**: the keys that it asks for are in the table then, and no others
are new. -/
theorem Kept.next (h : Kept grammar input calls audited table) (hbuilt : grammar.Built)
    (hclear : call ≠ .clear) :
    ∃ next, Kept grammar input (calls ++ [call]) (audited.call call) next := by
  obtain ⟨session, ledger⟩ := audited
  obtain rfl : session = ⟨grammar, input, some table⟩ := h.session_eq
  obtain ⟨survey, hsurvey⟩ := hbuilt.exists_survey input call
  obtain ⟨farthest, after, hcall, haccounts⟩ := call_accounts h.inOrder hclear hsurvey
  rw [hcall]
  refine ⟨after.progress.table, rfl, haccounts.inOrder, fun key => ?_, ?_⟩
  · rw [haccounts.mem_iff, h.mem_iff]
    simp only [List.mem_append, List.mem_singleton, or_and_right, exists_or, exists_eq_left,
      hsurvey, Except.ok.injEq, exists_eq_left']
  · intro asked lookups hcalls hlookups
    have hbefore := h.asked_eq asked lookups hcalls hlookups
    have hadded := haccounts.asked_add lookups hlookups
    have hthis := hcalls call survey hsurvey
    rw [List.map_append, List.sum_append, List.map_singleton, List.sum_singleton]
    simp only at hbefore hadded ⊢
    omega

/-- Clearing a session begins the books anew. -/
theorem Kept.clear (h : Kept grammar input calls audited table) :
    Kept grammar input [] (audited.call .clear) .empty := by
  obtain ⟨session, ledger⟩ := audited
  obtain rfl : session = ⟨grammar, input, some table⟩ := h.session_eq
  exact kept_nil grammar input

/-- **Any calls keep the books.** -/
theorem exists_kept (hbuilt : grammar.Built) (input : Input) (calls : List Session.Call) :
    ∃ table, Kept grammar input (calls.rtakeWhile (· ≠ .clear))
      ((Session.mk grammar input (some .empty)).audited.calls calls) table := by
  induction calls using List.reverseRecOn with
  | nil => exact ⟨.empty, kept_nil grammar input⟩
  | append_singleton calls call ih =>
    obtain ⟨table, hkept⟩ := ih
    rw [calls_append_singleton, List.rtakeWhile_concat]
    by_cases hclear : call = .clear
    · subst hclear
      exact ⟨.empty, hkept.clear⟩
    · rw [if_pos (by simpa using hclear)]
      exact hkept.next hbuilt hclear

/-- A call that was made before enters nothing. -/
theorem Kept.again (h : Kept grammar input calls audited table) (hbuilt : grammar.Built)
    (hcall : call ∈ calls) (hclear : call ≠ .clear) :
    ∃ next, (audited.call call).session = ⟨grammar, input, some next⟩ ∧ next.size = table.size ∧
      ∀ key, key ∈ next.entries ↔ key ∈ table.entries := by
  obtain ⟨next, hnext⟩ := h.next hbuilt hclear
  have hmem : ∀ key, key ∈ next.entries ↔ key ∈ table.entries := by
    intro key
    rw [hnext.mem_iff, h.mem_iff]
    constructor
    · rintro ⟨other, hother, hkey⟩
      rcases List.mem_append.1 hother with hother | hother
      · exact ⟨other, hother, hkey⟩
      · rw [List.mem_singleton.1 hother] at hkey
        exact ⟨call, hcall, hkey⟩
    · rintro ⟨other, hother, hkey⟩
      exact ⟨other, List.mem_append_left _ hother, hkey⟩
  exact ⟨next, hnext.session_eq, hnext.inOrder.size_congr h.inOrder hmem, hmem⟩

end AuditedSession

/-- The keys of the rules of an arena in one mode, from an offset on. -/
def Memo.Key.listFrom (arena : Arena) (input : Input) (mode : Mode) (pos : Nat) :
    List Memo.Key :=
  (List.range arena.rules.size).flatMap fun rule =>
    (List.range (input.length - pos + 1)).map fun ahead => ⟨rule, pos + ahead, mode⟩

namespace Memo.Key

variable {arena : Arena} {mode : Mode} {pos : Nat} {key : Memo.Key}

theorem length_listFrom (arena : Arena) (input : Input) (mode : Mode) (pos : Nat) :
    (listFrom arena input mode pos).length = arena.rules.size * (input.length - pos + 1) := by
  simp [listFrom, List.length_flatMap]

theorem From.mem_listFrom (h : key.From arena input mode pos) :
    key ∈ listFrom arena input mode pos := by
  obtain ⟨rule, offset, mode'⟩ := key
  obtain ⟨hrule, rfl, hle, hoffset⟩ := h
  have hle : pos ≤ offset := hle
  have hoffset : offset ≤ input.length := hoffset
  refine List.mem_flatMap.2 ⟨rule, List.mem_range.2 hrule, List.mem_map.2 ⟨offset - pos, ?_, ?_⟩⟩
  · rw [List.mem_range]
    omega
  · rw [Nat.add_sub_cancel' hle]

end Memo.Key

/-- A call asks for keys in its mode, from the offset on that it begins at. -/
theorem Grammar.from_of_survey {survey : Survey} {start : Nat} {mode : Mode}
    (hsurvey : grammar.survey input call = .ok survey) (hstart : call.start? = some start)
    (hmode : call.mode? = some mode) :
    ∀ key ∈ survey.all, key.From grammar.arena input mode start := by
  unfold Grammar.survey at hsurvey
  cases htarget : grammar.target? input call with
  | none =>
    rw [htarget] at hsurvey
    cases hsurvey
    intro key hkey
    cases hkey
  | some target =>
    simp only [htarget] at hsurvey
    have hle := (target?_eq_some htarget).1
    have hbegins := start?_of_target? htarget
    have hmatches := mode?_of_target? htarget
    obtain rfl : target.start = start := Option.some.inj (hbegins.symm.trans hstart)
    obtain rfl : target.mode = mode := Option.some.inj (hmatches.symm.trans hmode)
    split at hsurvey
    · cases hsurvey
    · rename_i outcome asked hnode
      cases hsurvey
      exact from_of_evalNode hle hnode

namespace AuditedSession

variable {audited : AuditedSession} {calls : List Session.Call} {table : Memo.Table}

/-- **A call settles each rule once at most** at each offset from its own on. -/
theorem Kept.misses_le (h : Kept grammar input calls audited table) (hbuilt : grammar.Built)
    {start : Nat} (hstart : call.start? = some start) :
    (audited.call call).ledger.misses.length ≤
      audited.ledger.misses.length + grammar.arena.rules.size * (input.length - start + 1) := by
  have hclear : call ≠ .clear := by
    rintro rfl
    cases hstart
  obtain ⟨next, hnext⟩ := h.next hbuilt hclear
  obtain ⟨survey, hsurvey⟩ := hbuilt.exists_survey input call
  obtain ⟨mode, hmode⟩ := Session.Call.exists_mode? hstart
  have hfrom := Grammar.from_of_survey hsurvey hstart hmode
  have hsub : (audited.call call).ledger.misses.map Memo.Miss.key ⊆
      audited.ledger.misses.map Memo.Miss.key ++
        Memo.Key.listFrom grammar.arena input mode start := by
    intro key hkey
    rw [← hnext.inOrder.mem_iff, hnext.mem_iff] at hkey
    obtain ⟨other, hother, survey', hsurvey', hin⟩ := hkey
    rcases List.mem_append.1 hother with hother | hother
    · refine List.mem_append_left _ ?_
      rw [← h.inOrder.mem_iff, h.mem_iff]
      exact ⟨other, hother, survey', hsurvey', hin⟩
    · rw [List.mem_singleton.1 hother, hsurvey] at hsurvey'
      cases hsurvey'
      exact List.mem_append_right _ (hfrom key hin).mem_listFrom
  have hle := (hnext.inOrder.nodup.subperm hsub).length_le
  rw [List.length_append, List.length_map, List.length_map, Memo.Key.length_listFrom] at hle
  exact hle

end AuditedSession

namespace Grammar

/-- Where the settings ask for tables a session begins with an empty one. -/
theorem session_of_memoize (hmemo : grammar.config.memoize = true) (text : String) :
    grammar.session text = ⟨grammar, .ofString text, some .empty⟩ := by
  rw [session, freshTable?, if_pos hmemo]

/-- **Memo accounting.** After any calls on a session with a table, the table holds the keys that
the calls since the last `clear` ask for when there is no table. For each key its rule was settled
once, while it had no entry, so there are as many entries as rules that were settled, and whatever
else was asked for was found. A call for an unknown rule or behind the end of the text leaves the
session as it is, a call that was made before adds no entry, and any call settles each rule once at
most at each offset from its own on. -/
theorem Built.memo_accounting (h : grammar.Built) (hmemo : grammar.config.memoize = true)
    (text : String) (calls : List Session.Call) :
    let last := ((grammar.session text).calls calls).2
    let audited := (grammar.session text).audited.calls calls
    audited.session = last ∧ ∃ table, last.table? = some table ∧
      (∀ call, ∃ survey, grammar.survey (.ofString text) call = .ok survey) ∧
      (∀ key, key ∈ table.entries ↔ ∃ call ∈ calls.rtakeWhile (· ≠ .clear), ∃ survey,
        grammar.survey (.ofString text) call = .ok survey ∧ key ∈ survey.all) ∧
      (∀ miss ∈ audited.ledger.misses, miss.present = false) ∧
      (audited.ledger.misses.map Memo.Miss.key).Nodup ∧
      audited.ledger.misses.length = table.size ∧
      table.hits + table.size = audited.ledger.asked ∧
      (∀ call, (∃ name, (last.call call).1 = .error (.unknownRule name)) ∨
        (∃ start, call.start? = some start ∧ text.length < start) → (last.call call).2 = last) ∧
      (∀ call ∈ calls.rtakeWhile (· ≠ .clear), ∃ next, (last.call call).2.table? = some next ∧
        next.size = table.size ∧
        ∀ key : Memo.Key, next.entries[key]? = table.entries[key]?) ∧
      ∀ call start, call.start? = some start → start ≤ text.length →
        (audited.call call).ledger.misses.length ≤
          audited.ledger.misses.length + grammar.arena.rules.size * (text.length - start + 1) := by
  intro last audited
  have hsame : audited.session = last := AuditedSession.session_calls _ calls
  have hserves := ((grammar.session_serves text).calls h calls).2
  obtain ⟨table, hkept⟩ := AuditedSession.exists_kept h (.ofString text) calls
  rw [← session_of_memoize hmemo] at hkept
  have htable : last.table? = some table := by
    rw [← hsame, hkept.session_eq]
  refine ⟨hsame, table, htable, h.exists_survey _, hkept.mem_iff, hkept.inOrder.absent,
    hkept.inOrder.nodup, hkept.inOrder.size_eq, hkept.inOrder.asked_eq, ?_, ?_, ?_⟩
  · rintro call (⟨name, hanswer⟩ | ⟨start, hstart, hlt⟩)
    · exact Session.call_of_error hanswer
    · refine Session.call_of_length_lt hstart ?_
      rw [hserves.input_eq, Input.length_ofString]
      exact hlt
  · intro call hcall
    have hclear : call ≠ .clear := by simpa using List.mem_rtakeWhile_imp hcall
    obtain ⟨next, hsession, hsize, hmem⟩ := hkept.again h hcall hclear
    rw [AuditedSession.session_call, hsame] at hsession
    have hnext : (last.call call).2.table? = some next := by rw [hsession]
    refine ⟨next, hnext, hsize, ?_⟩
    exact ((hserves.call h call).2.2.sound next hnext).getElem?_congr
      (hserves.sound table htable) hmem
  · intro call start hstart hle
    have hmisses := hkept.misses_le h hstart
    rw [Input.length_ofString] at hmisses
    exact hmisses

/-- Two calls after a `clear` that settle three rules, and find one of them again. -/
theorem onlyAs_memo_accounting :
    onlyAs.Built ∧ onlyAs.config.memoize = true ∧
      ∃ table, ((onlyAs.session "aab").calls
          [.parse 0 .lexer, .clear, .parse 1 .parser, .parseRule "as" 0 .parser]).2.table? =
            some table ∧ table.size = 3 ∧ table.hits = 1 := by
  obtain ⟨-, table, htable, -, -, -, -, hsize, hasked, -⟩ := onlyAs_built.memo_accounting rfl "aab"
    [.parse 0 .lexer, .clear, .parse 1 .parser, .parseRule "as" 0 .parser]
  have hmisses : ((onlyAs.session "aab").audited.calls
      [.parse 0 .lexer, .clear, .parse 1 .parser,
        .parseRule "as" 0 .parser]).ledger.misses.length = 3 := by decide +kernel
  have hcount : ((onlyAs.session "aab").audited.calls
      [.parse 0 .lexer, .clear, .parse 1 .parser,
        .parseRule "as" 0 .parser]).ledger.asked = 4 := by decide +kernel
  rw [hmisses] at hsize
  rw [hcount] at hasked
  exact ⟨onlyAs_built, rfl, table, htable, hsize.symm, by omega⟩

end Grammar

end Packrat
