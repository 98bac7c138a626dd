import Packrat.Arena.Expression
import Packrat.Proofs.Built
import Packrat.Proofs.CheckedLookups
import Packrat.Proofs.QuotedTexts

/-!
# The notation of expressions is unambiguous

Every part of a sequence shows by its first character what kind of part it is, and where it ends: a
literal at its closing quote, a sequence at its closing bracket. Behind a part there is nothing
more, or a blank, and behind the blank another part or the closing bracket.

* `Arena.exists_expression`: a node with no other parts than expressions have is an expression.
* `Arena.toList_writtenNode`: a node is written like its expression.
* `writtenPart_append_inj`, `writtenParts_append_inj`: what is written tells the parts, and what is
  behind them.
* `Grammar.written_unambiguous`: **sequences that are written alike are the same tree.**
-/

namespace Packrat

open Expression

/-- What is made of each element of a list, given that something is made of the list. -/
theorem forall₂_of_mapM {α β : Type} {f : α → Option β} {xs : List α} {ys : List β}
    (h : xs.mapM f = some ys) : List.Forall₂ (fun x y => f x = some y) xs ys := by
  induction xs generalizing ys with
  | nil =>
    cases h
    exact .nil
  | cons x xs ih =>
    rw [List.mapM_cons] at h
    obtain ⟨y, hy, h⟩ := Option.bind_eq_some_iff.1 h
    obtain ⟨rest, hrest, h⟩ := Option.bind_eq_some_iff.1 h
    cases h
    exact .cons hy (ih hrest)

theorem map_eq_of_forall₂ {α β γ : Type} {f : α → γ} {g : β → γ} {xs : List α} {ys : List β}
    (h : List.Forall₂ (fun x y => f x = g y) xs ys) : xs.map f = ys.map g := by
  have hmap : List.Forall₂ (· = ·) (xs.map f) (ys.map g) :=
    List.forall₂_map_left_iff.2 (List.forall₂_map_right_iff.2 h)
  rwa [List.forall₂_eq_eq_eq] at hmap

theorem exists_of_mem_of_forall₂ {α β : Type} {R : α → β → Prop} {xs : List α} {ys : List β}
    (h : List.Forall₂ R xs ys) {x : α} (hx : x ∈ xs) : ∃ y, R x y := by
  induction h with
  | nil => cases hx
  | cons hhead _ ih =>
    rcases List.mem_cons.1 hx with rfl | hx
    · exact ⟨_, hhead⟩
    · exact ih hx

/-! ### Nodes as expressions -/

namespace Arena

variable {arena : Arena} {place : Nat} {children : List NodeId}

/-- The parts of a part of a sequence are parts of the sequence. -/
theorem HasPart.of_child {child : NodeId} {p : Nat}
    (hnode : arena.nodes[place]? = some (.sequence children)) (hchild : child ∈ children)
    (h : arena.HasPart child.index p) : arena.HasPart place p := by
  induction h with
  | self => exact .child .self hnode hchild
  | child _ hnode hchild ih => exact .child ih hnode hchild

/-- **A node with no other parts than expressions have is an expression.** -/
theorem exists_expression (hwf : arena.WellFormed)
    (hparts : ∀ p, arena.HasPart place p → (arena.nodes[p]?).any Node.inExpression = true) :
    ∃ e, arena.expression? place = some e := by
  induction place using Nat.strong_induction_on with
  | _ place ih =>
    have hself := hparts place .self
    obtain ⟨node, hnode⟩ : ∃ node, arena.nodes[place]? = some node := by
      cases hnode : arena.nodes[place]? with
      | none => simp [hnode] at hself
      | some node => exact ⟨node, rfl⟩
    rw [hnode] at hself
    rw [expression?]
    cases node with
    | primitive p => cases p <;> simp_all [Node.inExpression]
    | rule id => simp [Node.inExpression] at hself
    | sequence children =>
      have hall : ∀ child ∈ children, (if _h : child.index < place then
          arena.expression? child.index else none).isSome = true := by
        intro child hchild
        have hlt := hwf.child_lt place children hnode child hchild
        obtain ⟨e, he⟩ := ih child.index hlt fun p hp => hparts p (hp.of_child hnode hchild)
        rw [dif_pos hlt, he, Option.isSome_some]
      simp only [hnode]
      rw [mapM_eq_some_filterMap hall]
      exact ⟨_, rfl⟩

/-- The parts of an expression are the expressions of the parts. -/
theorem expression?_sequence {e : Expression}
    (hnode : arena.nodes[place]? = some (.sequence children))
    (h : arena.expression? place = some e) : ∃ parts, e = .sequence parts ∧
      List.Forall₂ (fun child part =>
        child.index < place ∧ arena.expression? child.index = some part) children parts := by
  rw [expression?] at h
  simp only [hnode] at h
  obtain ⟨parts, hparts, h⟩ := Option.bind_eq_some_iff.1 h
  cases h
  refine ⟨parts, rfl, (forall₂_of_mapM hparts).imp fun child part hpart => ?_⟩
  split at hpart
  · next hlt => exact ⟨hlt, hpart⟩
  · cases hpart

/-- The expression of a sequence is a sequence, and no other is. -/
theorem isSequence_expression {e : Expression} (h : arena.expression? place = some e) :
    (arena.nodes[place]?).any Node.isSequence = e.isSequence := by
  cases hnode : arena.nodes[place]? with
  | none =>
    rw [expression?] at h
    simp [hnode] at h
  | some node =>
    cases node with
    | sequence children =>
      obtain ⟨parts, rfl, -⟩ := expression?_sequence hnode h
      rfl
    | rule id =>
      rw [expression?] at h
      simp [hnode] at h
    | primitive p =>
      rw [expression?] at h
      cases p <;> simp only [hnode] at h <;> cases h <;> rfl

/-- The parts of an expression, at any depth, are expressions. -/
theorem HasPart.exists_expression {p : Nat} (h : arena.HasPart place p)
    (hself : ∃ e, arena.expression? place = some e) : ∃ e, arena.expression? p = some e := by
  induction h with
  | self => exact hself
  | child _ hnode hchild ih =>
    obtain ⟨e, he⟩ := ih
    obtain ⟨parts, -, hparts⟩ := expression?_sequence hnode he
    obtain ⟨part, -, hpart⟩ := exists_of_mem_of_forall₂ hparts hchild
    exact ⟨part, hpart⟩

/-- **A node is an expression if and only if** it has no other parts than expressions have. -/
theorem exists_expression_iff (hwf : arena.WellFormed) :
    (∃ e, arena.expression? place = some e) ↔
      ∀ p, arena.HasPart place p → (arena.nodes[p]?).any Node.inExpression = true := by
  refine ⟨fun hself p hp => ?_, exists_expression hwf⟩
  obtain ⟨e, he⟩ := hp.exists_expression hself
  rw [expression?] at he
  split at he <;> simp_all [Node.inExpression]

end Arena

/-- Parts with a blank between them. -/
theorem intercalate_writtenPart (part : Expression) (rest : List Expression) :
    [' '].intercalate ((part :: rest).map writtenPart) = writtenParts (part :: rest) := by
  have hrest : ∀ (chars : List Char) (rest : List Expression),
      [' '].intercalate (chars :: rest.map writtenPart) = chars ++ writtenRest rest := by
    intro chars rest
    induction rest generalizing chars with
    | nil => simp [writtenRest]
    | cons next rest ih => simp [writtenRest, ih]
  rw [List.map_cons, hrest, writtenParts]

/-- An expression as a part of a sequence has brackets around it if it is a sequence. -/
theorem writtenPart_eq (e : Expression) :
    e.writtenPart = if e.isSequence then '(' :: ' ' :: e.written ++ [' ', ')'] else e.written := by
  cases e <;> rfl

namespace Arena

variable {arena : Arena} {place : Nat}

/-- **A node is written like its expression.** -/
theorem toList_writtenNode {e : Expression} (h : arena.expression? place = some e) :
    (arena.writtenNode place).toList = e.written := by
  induction place using Nat.strong_induction_on generalizing e with
  | _ place ih =>
    cases hnode : arena.nodes[place]? with
    | none =>
      rw [expression?] at h
      simp [hnode] at h
    | some node =>
      cases node with
      | rule id =>
        rw [expression?] at h
        simp [hnode] at h
      | primitive p =>
        rw [expression?] at h
        rw [writtenNode]
        cases p <;> simp only [hnode] at h ⊢ <;> cases h <;> rfl
      | sequence children =>
        obtain ⟨parts, rfl, hparts⟩ := expression?_sequence hnode h
        have hpart : List.Forall₂ (fun child part => (if _h : child.index < place then
            if (arena.node? child).any Node.isSequence then
              "( " ++ arena.writtenNode child.index ++ " )"
            else arena.writtenNode child.index
          else "").toList = part.writtenPart) children parts := by
          refine hparts.imp fun child part hchild => ?_
          obtain ⟨hlt, he⟩ := hchild
          rw [dif_pos hlt, node?, isSequence_expression he, writtenPart_eq]
          cases part.isSequence with
          | true => simp [ih child.index hlt he]
          | false => simpa using ih child.index hlt he
        have hmap := map_eq_of_forall₂ hpart
        rw [writtenNode]
        simp only [hnode]
        cases hparts with
        | nil => simp [Expression.written, writtenParts]
        | cons _ _ =>
          rw [Expression.written, ← intercalate_writtenPart, ← hmap]
          simp only [String.toList_intercalate, List.map_map]
          rfl

end Arena

/-! ### What is written tells the parts -/

/-- A part begins neither with a closing bracket nor with both brackets. -/
theorem writtenPart_append_ne (u : Expression) (x y : List Char) :
    u.writtenPart ++ x ≠ ')' :: y ∧ u.writtenPart ++ x ≠ '(' :: ')' :: y := by
  cases u <;> simp [writtenPart]

/-- What may stand behind the parts of a sequence: nothing, or a blank and the closing bracket. -/
def Closes (rest : List Char) : Prop := rest = [] ∨ ∃ more, rest = ' ' :: ')' :: more

/-- What stands behind the parts of a sequence is not another part. -/
theorem Closes.ne {rest : List Char} (h : Closes rest) (u : Expression) (x : List Char) :
    rest ≠ ' ' :: (u.writtenPart ++ x) := by
  intro hrest
  rcases h with rfl | ⟨more, rfl⟩
  · cases hrest
  · exact (writtenPart_append_ne u x more).1 (List.cons.inj hrest).2.symm

mutual

/-- **A part is told by what is written**, whatever is behind it. -/
theorem writtenPart_append_inj (t u : Expression) (r s : List Char)
    (h : t.writtenPart ++ r = u.writtenPart ++ s) : t = u ∧ r = s := by
  cases t with
  | any => cases u <;> simp_all [writtenPart]
  | eof => cases u <;> simp_all [writtenPart]
  | literal text =>
    cases u with
    | literal text' =>
      obtain ⟨htext, hrest⟩ := Text.quoteAscii_append_inj h
      exact ⟨by rw [Array.toList_inj.1 htext], hrest⟩
    | _ => simp [writtenPart] at h
  | sequence ts =>
    cases u with
    | sequence us =>
      have hparts :
          writtenParts ts ++ (' ' :: ')' :: r) = writtenParts us ++ (' ' :: ')' :: s) := by
        simpa [writtenPart] using h
      obtain ⟨rfl, hrest⟩ := writtenParts_append_inj ts us _ _ (.inr ⟨r, rfl⟩) (.inr ⟨s, rfl⟩)
        hparts
      exact ⟨rfl, by simpa using hrest⟩
    | _ => simp [writtenPart] at h

/-- **The parts of a sequence are told by what is written**, up to what closes it. -/
theorem writtenParts_append_inj (ts us : List Expression) (r s : List Char) (hr : Closes r)
    (hs : Closes s) (h : writtenParts ts ++ r = writtenParts us ++ s) : ts = us ∧ r = s := by
  cases ts with
  | nil =>
    cases us with
    | nil => exact ⟨rfl, by simpa [writtenParts] using h⟩
    | cons u us =>
      rw [writtenParts, writtenParts, List.append_assoc] at h
      exact absurd h.symm (writtenPart_append_ne u _ _).2
  | cons t ts =>
    cases us with
    | nil =>
      rw [writtenParts, writtenParts, List.append_assoc] at h
      exact absurd h (writtenPart_append_ne t _ _).2
    | cons u us =>
      rw [writtenParts, writtenParts, List.append_assoc, List.append_assoc] at h
      obtain ⟨rfl, hrest⟩ := writtenPart_append_inj t u _ _ h
      obtain ⟨rfl, hbehind⟩ := writtenRest_append_inj ts us r s hr hs hrest
      exact ⟨rfl, hbehind⟩

/-- So are the parts behind the first. -/
theorem writtenRest_append_inj (ts us : List Expression) (r s : List Char) (hr : Closes r)
    (hs : Closes s) (h : writtenRest ts ++ r = writtenRest us ++ s) : ts = us ∧ r = s := by
  cases ts with
  | nil =>
    cases us with
    | nil => exact ⟨rfl, h⟩
    | cons u us =>
      rw [writtenRest, writtenRest, List.nil_append, List.cons_append, List.append_assoc] at h
      exact absurd h (hr.ne u _)
  | cons t ts =>
    cases us with
    | nil =>
      rw [writtenRest, writtenRest, List.nil_append, List.cons_append, List.append_assoc] at h
      exact absurd h.symm (hs.ne t _)
    | cons u us =>
      rw [writtenRest, writtenRest, List.cons_append, List.cons_append, List.append_assoc,
        List.append_assoc] at h
      obtain ⟨rfl, hrest⟩ := writtenPart_append_inj t u _ _ (List.cons.inj h).2
      obtain ⟨rfl, hbehind⟩ := writtenRest_append_inj ts us r s hr hs hrest
      exact ⟨rfl, hbehind⟩

end

namespace Grammar

/-- **The notation of expressions is unambiguous.**

Two sequences, of any built grammars, with no parts at any depth but sequences, literals, any
characters and ends of the text: if they are written alike they are the same tree. Literals are
written in printable ASCII, and each in a way of its own. -/
theorem written_unambiguous :
    (Function.Injective fun text : String => (Primitive.ofString text).written) ∧
    (∀ text : String, ∀ c ∈ (Primitive.ofString text).written.toList, ' ' ≤ c ∧ c ≤ '~') ∧
    ∀ (grammar other : Grammar) (id id' : NodeId), grammar.Built → other.Built →
      (grammar.arena.node? id).any Node.isSequence = true →
      (other.arena.node? id').any Node.isSequence = true →
      (∀ place, grammar.arena.HasPart id.index place →
        (grammar.arena.nodes[place]?).any Node.inExpression = true) →
      (∀ place, other.arena.HasPart id'.index place →
        (other.arena.nodes[place]?).any Node.inExpression = true) →
      grammar.arena.writtenNode id.index = other.arena.writtenNode id'.index →
      ∃ parts, grammar.arena.expression? id.index = some (.sequence parts) ∧
        other.arena.expression? id'.index = some (.sequence parts) := by
  refine ⟨?_, ?_, ?_⟩
  · intro text text' h
    have htext : text.toList = text'.toList := Text.quoteAscii_injective h
    exact String.toList_inj.1 htext
  · intro text c hc
    exact Text.printable_of_mem_quoteAscii hc
  · intro grammar other id id' hbuilt hbuilt' hseq hseq' hparts hparts' hwritten
    obtain ⟨e, he⟩ := Arena.exists_expression hbuilt.wellFormed hparts
    obtain ⟨e', he'⟩ := Arena.exists_expression hbuilt'.wellFormed hparts'
    have hchars : e.written = e'.written := by
      rw [← Arena.toList_writtenNode he, ← Arena.toList_writtenNode he', hwritten]
    -- both are sequences, so they are written without brackets around them
    obtain ⟨ts, rfl⟩ : ∃ ts, e = .sequence ts := by
      have := (Arena.isSequence_expression he).symm.trans hseq
      cases e <;> simp_all [Expression.isSequence]
    obtain ⟨us, rfl⟩ : ∃ us, e' = .sequence us := by
      have := (Arena.isSequence_expression he').symm.trans hseq'
      cases e' <;> simp_all [Expression.isSequence]
    have happend : writtenParts ts ++ [] = writtenParts us ++ [] := by
      rw [List.append_nil, List.append_nil]
      exact hchars
    obtain ⟨rfl, -⟩ := writtenParts_append_inj ts us [] [] (.inl rfl) (.inl rfl) happend
    exact ⟨ts, he, he'⟩

/-- A quote, a backslash and a bracket, and behind them any character by itself. -/
def quotes : Grammar where
  arena :=
    { nodes := #[.primitive (.ofString "'\\("), .primitive .any, .sequence [⟨1, 0⟩],
        .sequence [⟨0, 0⟩, ⟨2, 0⟩]]
      rules := #[]
      names := [] }
  root := ⟨3, 0⟩
  config := {}

/-- The same, put together in another order. -/
def quotesAgain : Grammar where
  arena :=
    { nodes := #[.primitive .any, .primitive .eof, .sequence [⟨0, 7⟩],
        .primitive (.ofString "'\\("), .sequence [⟨3, 7⟩, ⟨2, 7⟩]]
      rules := #[]
      names := [] }
  root := ⟨4, 7⟩
  config := {}

theorem quotes_built : quotes.Built :=
  ⟨0, [.literal "'\\(", .any, .sequence [⟨1, 0⟩], .sequence [⟨0, 0⟩, ⟨2, 0⟩]], ⟨3, 0⟩, {},
    by decide +kernel⟩

theorem quotesAgain_built : quotesAgain.Built :=
  ⟨7, [.any, .eof, .sequence [⟨0, 7⟩], .literal "'\\(", .sequence [⟨3, 7⟩, ⟨2, 7⟩]], ⟨4, 7⟩, {},
    by decide +kernel⟩

/-- Both stand for the same two parts, and are written alike. -/
theorem written_unambiguous_quotes :
    quotes.arena.writtenNode 3 = "'\\'\\\\(' ( . )" ∧
      quotesAgain.arena.writtenNode 4 = "'\\'\\\\(' ( . )" ∧
      ∃ parts, quotes.arena.expression? 3 = some (.sequence parts) ∧
        quotesAgain.arena.expression? 4 = some (.sequence parts) := by
  have hwritten : quotes.arena.writtenNode 3 = "'\\'\\\\(' ( . )" := by cbv
  have hwritten' : quotesAgain.arena.writtenNode 4 = "'\\'\\\\(' ( . )" := by cbv
  have hparts : ∃ e, quotes.arena.expression? 3 = some e := ⟨_, by cbv⟩
  have hparts' : ∃ e, quotesAgain.arena.expression? 4 = some e := ⟨_, by cbv⟩
  refine ⟨hwritten, hwritten', ?_⟩
  exact written_unambiguous.2.2 quotes quotesAgain ⟨3, 0⟩ ⟨4, 7⟩ quotes_built quotesAgain_built rfl
    rfl ((Arena.exists_expression_iff quotes_built.wellFormed).1 hparts)
    ((Arena.exists_expression_iff quotesAgain_built.wellFormed).1 hparts')
    (hwritten.trans hwritten'.symm)

end Grammar

end Packrat
