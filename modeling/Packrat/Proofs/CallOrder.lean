import Packrat.Proofs.MemoAccounting

/-!
# The order of calls

Which call settles a rule and which one finds it depends on their order. How often it is asked for
does not: a call asks for so many rules itself, a rule that is settled asks for so many others, and
each rule that any of them asks for is settled once.

* `Arena.exists_lookups`: how many rules a rule asks for follows from its key.
* `Kept.hits_congr`: tables of the same calls were hit equally often.
* `Built.calls_perm`: **the order of calls shows neither in their answers nor in the table.**
-/

namespace Packrat

/-- What a rule asks for itself when it is settled depends on nothing but its key. -/
theorem Arena.exists_lookups (arena : Arena) (input : Input) :
    ∃ lookups, arena.CountsLookups input lookups := by
  have hcount : ∀ key, ∃ count, ∀ resolution survey,
      arena.Surveys input key resolution survey → count = survey.direct.length := by
    intro key
    by_cases h : ∃ resolution survey, arena.Surveys input key resolution survey
    · obtain ⟨resolution, survey, hsurvey⟩ := h
      refine ⟨survey.direct.length, fun resolution' survey' hsurvey' => ?_⟩
      rw [(hsurvey.unique hsurvey').2]
    · exact ⟨0, fun resolution survey hsurvey => absurd ⟨resolution, survey, hsurvey⟩ h⟩
  choose lookups hlookups using hcount
  exact ⟨lookups, hlookups⟩

namespace AuditedSession

variable {grammar : Grammar} {input : Input} {calls calls' : List Session.Call}
  {audited audited' : AuditedSession} {table table' : Memo.Table}

/-- What a call asks for itself depends on nothing but the call. -/
theorem exists_asked (hbuilt : grammar.Built) (input : Input) :
    ∃ asked, CountsAsked grammar input asked := by
  choose survey hsurvey using hbuilt.exists_survey input
  refine ⟨fun call => (survey call).direct.length, fun call other hother => ?_⟩
  rw [hsurvey call] at hother
  cases hother
  rfl

/-- The same calls enter the same keys. -/
theorem Kept.mem_congr (h : Kept grammar input calls audited table)
    (h' : Kept grammar input calls' audited' table') (hperm : calls.Perm calls')
    (key : Memo.Key) : key ∈ table.entries ↔ key ∈ table'.entries := by
  rw [h.mem_iff, h'.mem_iff]
  simp only [hperm.mem_iff]

/-- **Tables of the same calls were hit equally often**: the rules that were settled are the same,
so equally many were asked for. -/
theorem Kept.hits_congr (h : Kept grammar input calls audited table)
    (h' : Kept grammar input calls' audited' table') (hbuilt : grammar.Built)
    (hperm : calls.Perm calls') : table.hits = table'.hits := by
  obtain ⟨asked, hasked⟩ := exists_asked hbuilt input
  obtain ⟨lookups, hlookups⟩ := grammar.arena.exists_lookups input
  have hmem := h.mem_congr h' hperm
  have hcalls : (calls.map asked).sum = (calls'.map asked).sum := (hperm.map asked).sum_nat
  have hsettled : audited.ledger.lookups lookups = audited'.ledger.lookups lookups :=
    ((h.inOrder.perm h'.inOrder hmem).map lookups).sum_nat
  have hledger : audited.ledger.asked = audited'.ledger.asked := by
    rw [h.asked_eq asked lookups hasked hlookups, h'.asked_eq asked lookups hasked hlookups,
      hcalls, hsettled]
  have hsize := h.inOrder.size_congr h'.inOrder hmem
  have htable := h.inOrder.asked_eq
  have htable' := h'.inOrder.asked_eq
  omega

end AuditedSession

namespace Grammar

variable {grammar : Grammar} {calls calls' : List Session.Call}

/-- The books of a session, from the last call on that cleared it. -/
theorem Built.exists_kept_calls (h : grammar.Built) (hmemo : grammar.config.memoize = true)
    (text : String) (calls : List Session.Call) :
    ∃ table, AuditedSession.Kept grammar (.ofString text) (calls.rtakeWhile (· ≠ .clear))
        ((grammar.session text).audited.calls calls) table ∧
      ((grammar.session text).calls calls).2.table? = some table := by
  obtain ⟨table, hkept⟩ := AuditedSession.exists_kept h (.ofString text) calls
  rw [← session_of_memoize hmemo] at hkept
  refine ⟨table, hkept, ?_⟩
  have hsession := AuditedSession.session_calls (grammar.session text).audited calls
  rw [hkept.session_eq] at hsession
  exact (congrArg Session.table? hsession).symm

/-- The books of a session after calls none of which clears it. -/
theorem Built.exists_kept_session (h : grammar.Built) (hmemo : grammar.config.memoize = true)
    (text : String) (hclear : Session.Call.clear ∉ calls) :
    ∃ table, AuditedSession.Kept grammar (.ofString text) calls
        ((grammar.session text).audited.calls calls) table ∧
      ((grammar.session text).calls calls).2.table? = some table := by
  have hall : calls.rtakeWhile (· ≠ .clear) = calls := by
    rw [List.rtakeWhile_eq_self_iff]
    intro call hcall
    simpa using ne_of_mem_of_not_mem hcall hclear
  have hkept := h.exists_kept_calls hmemo text calls
  rwa [hall] at hkept

/-- **The order of calls does not show.** Any calls on a session with a table are answered as each
of them is as the only one. When the same calls are made in another order, with none that clears
the table, the table has the same entries in the end, and as many of them were found. -/
theorem Built.calls_perm (h : grammar.Built) (hmemo : grammar.config.memoize = true)
    (text : String) (hperm : calls.Perm calls') (hclear : Session.Call.clear ∉ calls) :
    let session := grammar.session text
    (session.calls calls).1 = calls.map (fun call => (session.call call).1) ∧
      (session.calls calls').1 = calls'.map (fun call => (session.call call).1) ∧
      ∃ table table', (session.calls calls).2.table? = some table ∧
        (session.calls calls').2.table? = some table' ∧
        (∀ key : Memo.Key, table.entries[key]? = table'.entries[key]?) ∧
        table.size = table'.size ∧ table.hits = table'.hits := by
  intro session
  have hopen := grammar.session_serves text
  have halone : ∀ call, (session.call call).1 =
      ((Session.mk grammar (.ofString text) none).call call).1 :=
    fun call => (hopen.call h call).1
  have hanswers : ∀ calls, (session.calls calls).1 =
      calls.map (fun call => (session.call call).1) := by
    intro calls
    simp only [halone]
    exact (hopen.calls h calls).1
  obtain ⟨table, hkept, htable⟩ := h.exists_kept_session hmemo text hclear
  obtain ⟨table', hkept', htable'⟩ :=
    h.exists_kept_session hmemo text fun hmem => hclear (hperm.mem_iff.2 hmem)
  have hmem := hkept.mem_congr hkept' hperm
  have hsound := (hopen.calls h calls).2.sound table htable
  have hsound' := (hopen.calls h calls').2.sound table' htable'
  exact ⟨hanswers calls, hanswers calls', table, table', htable, htable',
    hsound.getElem?_congr hsound' hmem, hkept.inOrder.size_congr hkept'.inOrder hmem,
    hkept.hits_congr hkept' h hperm⟩

theorem onlyAs_calls_perm :
    onlyAs.Built ∧ onlyAs.config.memoize = true ∧
      ([.parse 0 .lexer, .parseRule "as" 1 .lexer] : List Session.Call).Perm
        [.parseRule "as" 1 .lexer, .parse 0 .lexer] ∧
      Session.Call.clear ∉ [.parse 0 .lexer, .parseRule "as" 1 .lexer] ∧
      ∃ table table',
        ((onlyAs.session "aab").calls [.parse 0 .lexer, .parseRule "as" 1 .lexer]).2.table? =
          some table ∧
        ((onlyAs.session "aab").calls [.parseRule "as" 1 .lexer, .parse 0 .lexer]).2.table? =
          some table' ∧ table.hits = table'.hits := by
  have hperm : ([.parse 0 .lexer, .parseRule "as" 1 .lexer] : List Session.Call).Perm
      [.parseRule "as" 1 .lexer, .parse 0 .lexer] := .swap _ _ []
  obtain ⟨-, -, table, table', htable, htable', -, -, hhits⟩ :=
    onlyAs_built.calls_perm rfl "aab" hperm (by decide)
  exact ⟨onlyAs_built, rfl, hperm, by decide, table, table', htable, htable', hhits⟩

end Grammar

end Packrat
