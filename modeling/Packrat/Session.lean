import Packrat.Error
import Packrat.Grammar
import Packrat.Memo.Memoized

/-!
# Sessions

Matching a grammar against one text, any number of times: the root or any rule, from any
offset, in either mode. Where the settings ask for it, a session keeps the rules it settled in
a memo table for its later calls.

* `Grammar.session`: a session over a text.
* `Session.parse`, `Session.parseRule`, `Session.clear`: the calls, `Session.call` for a call
  given as data, and `Session.calls` for any number of them.
* `Grammar.parse`, `Grammar.parseRule`, `Grammar.recognize`: the same in a session of their own.
-/

namespace Packrat

/-- A grammar and a text, with a memo table if there is one. -/
structure Session where
  grammar : Grammar
  input : Input
  table? : Option Memo.Table

namespace Grammar

/-- An empty table, where the settings ask for tables. -/
def freshTable? (grammar : Grammar) : Option Memo.Table :=
  if grammar.config.memoize then some .empty else none

/-- A session over a text. -/
def session (grammar : Grammar) (text : String) : Session :=
  ⟨grammar, .ofString text, grammar.freshTable?⟩

end Grammar

namespace Session

/-- Matches a node from `start` on. A failure is reported at the farthest offset at which
anything failed; a start behind the end of the text fails at the end without being tried. -/
def evaluate (session : Session) (id : NodeId) (start : Nat) (mode : Mode) :
    Except Error (Outcome × Session) :=
  if start > session.input.length then .ok (.noMatchAt session.input.length, session)
  else
    let evaluation : Evaluation Outcome :=
      Evaluation.node session.grammar.arena session.input mode id start
    match evaluation.run start session.table? with
    | .error fault => .error (.evaluation fault)
    | .ok (reached, table?) => .ok (reached.report, { session with table? })

/-- Matches the root from `start` on. -/
def parse (session : Session) (start : Nat) (mode : Mode) : Except Error (Outcome × Session) :=
  session.evaluate session.grammar.root start mode

/-- Matches the rule of a name from `start` on. -/
def parseRule (session : Session) (name : String) (start : Nat) (mode : Mode) :
    Except Error (Outcome × Session) :=
  match session.grammar.ruleNode? name with
  | none => .error (.unknownRule name)
  | some id => session.evaluate id start mode

/-- Forgets all rules settled so far. -/
def clear (session : Session) : Session :=
  { session with table? := session.table?.map fun _ => .empty }

/-- A call on a session. -/
inductive Call where
  | parse (start : Nat) (mode : Mode)
  | parseRule (name : String) (start : Nat) (mode : Mode)
  | clear
deriving DecidableEq

/-- What becomes of a session by a call that may fail: a failed call changes nothing. -/
def keep (session : Session) : Except Error (Outcome × Session) →
    Except Error (Option Outcome) × Session
  | .ok (outcome, next) => (.ok (some outcome), next)
  | .error error => (.error error, session)

/-- Makes a call. The result holds the outcome of the match, if the call was for one. -/
def call (session : Session) : Call → Except Error (Option Outcome) × Session
  | .parse start mode => session.keep (session.parse start mode)
  | .parseRule name start mode => session.keep (session.parseRule name start mode)
  | .clear => (.ok none, session.clear)

/-- Makes calls one after another. -/
def calls (session : Session) : List Call → List (Except Error (Option Outcome)) × Session
  | [] => ([], session)
  | call :: rest =>
    let (answer, next) := session.call call
    let (answers, last) := next.calls rest
    (answer :: answers, last)

end Session

namespace Grammar

/-- Matches the root against a text from `start` on. -/
def parse (grammar : Grammar) (text : String) (start : Nat) (mode : Mode) :
    Except Error Outcome :=
  ((grammar.session text).parse start mode).map Prod.fst

/-- Matches the rule of a name against a text from `start` on. -/
def parseRule (grammar : Grammar) (name text : String) (start : Nat) (mode : Mode) :
    Except Error Outcome :=
  ((grammar.session text).parseRule name start mode).map Prod.fst

/-- Matches the root against a text from its beginning, in the mode of the settings. -/
def recognize (grammar : Grammar) (text : String) : Except Error Outcome :=
  grammar.parse text 0 grammar.config.defaultMode

end Grammar

end Packrat
