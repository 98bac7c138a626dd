import Packrat.Evaluation.Survey
import Packrat.Memo.Ledger
import Packrat.Session

/-!
# Sessions under audit

What the calls on a session ask for, and what they do with its table.

* `Grammar.target?`: what a call matches.
* `Grammar.survey`: the rules that a call asks for, without a table.
* `AuditedSession.calls`: calls on a session with a ledger of its table.
-/

namespace Packrat

/-- What a call matches: a node, from an offset on. -/
structure Target where
  node : NodeId
  start : Nat
  mode : Mode
deriving DecidableEq

/-- The offset that a call begins at. -/
def Session.Call.start? : Session.Call → Option Nat
  | .parse start _ => some start
  | .parseRule _ start _ => some start
  | .clear => none

/-- The mode that a call matches in. -/
def Session.Call.mode? : Session.Call → Option Mode
  | .parse _ mode => some mode
  | .parseRule _ _ mode => some mode
  | .clear => none

namespace Grammar

/-- What a call matches, if it comes to that: not if there is no rule of its name, nor if it
begins behind the end of the text. -/
def target? (grammar : Grammar) (input : Input) : Session.Call → Option Target
  | .parse start mode =>
    if start > input.length then none else some ⟨grammar.root, start, mode⟩
  | .parseRule name start mode =>
    match grammar.ruleNode? name with
    | none => none
    | some node => if start > input.length then none else some ⟨node, start, mode⟩
  | .clear => none

/-- The rules that a call asks for when there is no table. -/
def survey (grammar : Grammar) (input : Input) (call : Session.Call) : Except Fault Survey :=
  match grammar.target? input call with
  | none => .ok .empty
  | some target =>
    match (Evaluation.node grammar.arena input target.mode target.node target.start :
        Surveyed Outcome) with
    | .error fault => .error fault
    | .ok (_, survey) => .ok survey

end Grammar

/-- A session with a ledger of its table. -/
structure AuditedSession where
  session : Session
  ledger : Memo.Ledger

/-- A session whose ledger begins here. -/
def Session.audited (session : Session) : AuditedSession := ⟨session, .empty⟩

namespace AuditedSession

/-- Matches what a call is for, with the table and the ledger. -/
def evaluate (audited : AuditedSession) (target : Target) (table : Memo.Table) :
    AuditedSession :=
  let session := audited.session
  match (Evaluation.node session.grammar.arena session.input target.mode target.node target.start :
      Audited Outcome).run ⟨⟨target.start, table⟩, audited.ledger⟩ with
  | .error _ => audited
  | .ok (_, audit) => ⟨{ session with table? := some audit.progress.table }, audit.ledger⟩

/-- Makes a call. When the table is cleared the ledger begins anew. -/
def call (audited : AuditedSession) (call : Session.Call) : AuditedSession :=
  match audited.session.grammar.target? audited.session.input call, audited.session.table? with
  | some target, some table => audited.evaluate target table
  | _, _ => if call = .clear then audited.session.clear.audited else audited

/-- Makes calls one after another. -/
def calls (audited : AuditedSession) (calls : List Session.Call) : AuditedSession :=
  calls.foldl call audited

end AuditedSession

end Packrat
