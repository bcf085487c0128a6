import SqlSyntax.Proofs.Grammar.Expr

/-!
# Readings of queries

The clauses of a query, over the readings of what is nested in them. How
selections are combined is part of `SqlSyntax.Proofs.Grammar.Nesting`.
-/

namespace SqlSyntax.Grammar

section

variable (P : Phrases)

/-! ## Selected items -/

inductive IsSelectItem : List Token → SelectItem → Prop where
  | wildcard {t : Token} (kind : t.kind = .operator .times) : IsSelectItem [t] (.wildcard t.span)
  | qualifiedWildcard {ts : List Token} {d w : Token} {n : QualifiedName} (name : IsName ts n)
      (dot : d.kind = .punctuation .dot) (star : w.kind = .operator .times) :
      IsSelectItem (ts ++ [d, w]) (.qualifiedWildcard (n.span.through (ts ++ [d, w])) n)
  | expr {ts us : List Token} {e : Expr} {label : Option Identifier} (item : P.wholeExpr ts e)
      (name : IsAlias us label) :
      IsSelectItem (ts ++ us) (.expr (e.span.through (ts ++ us)) e label)

/-! ## Relations -/

inductive IsRelation : List Token → Relation → Prop where
  | table {ts us : List Token} {n : QualifiedName} {label : Option Identifier} (name : IsName ts n)
      (alias? : IsAlias us label) :
      IsRelation (ts ++ us) (.table (n.span.through (ts ++ us)) n label)
  | derived {o c : Token} {qs us : List Token} {q : Query} {label : Option Identifier}
      (opening : o.kind = .punctuation .openParen) (query : P.query qs q)
      (closing : c.kind = .punctuation .closeParen) (alias? : IsAlias us label) :
      IsRelation (o :: (qs ++ c :: us)) (.derived (o.span.through (o :: (qs ++ c :: us))) q label)

/-- The words of a join, with `JOIN` as the last. -/
inductive IsJoinKind : List Token → JoinKind → Prop where
  | plain {t : Token} (join : t.kind = .keyword .JOIN) : IsJoinKind [t] .inner
  | inner {ts : List Token} (words : Keywords [.INNER, .JOIN] ts) : IsJoinKind ts .inner
  | cross {ts : List Token} (words : Keywords [.CROSS, .JOIN] ts) : IsJoinKind ts .cross
  | outer {t u : Token} {ns : List Token} {kind : JoinKind}
      (side : kind = .left ∨ kind = .right ∨ kind = .full) (word : t.kind = .keyword kind.keyword)
      (noise : Noise .OUTER ns) (join : u.kind = .keyword .JOIN) :
      IsJoinKind (t :: (ns ++ [u])) kind

/-- What joins two relations; a cross join has no condition. -/
inductive IsJoinCondition : JoinKind → List Token → JoinCondition → Prop where
  | on {kind : JoinKind} {ts : List Token} {e : Expr} (inner : kind ≠ .cross)
      (condition : Behind (.keyword .ON) P.wholeExpr ts e) : IsJoinCondition kind ts (.on e)
  | shared {kind : JoinKind} {ts : List Token} {cs : List Identifier} (inner : kind ≠ .cross)
      (columns : Behind (.keyword .USING) IsColumnList ts cs) :
      IsJoinCondition kind ts (.shared cs)
  | none {kind : JoinKind} : IsJoinCondition kind [] .none

inductive IsJoin : List Token → Join → Prop where
  | intro {t : Token} {ks rs cs : List Token} {kind : JoinKind} {r : Relation} {c : JoinCondition}
      (words : IsJoinKind (t :: ks) kind) (relation : IsRelation P rs r)
      (condition : IsJoinCondition P kind cs c) :
      IsJoin (t :: (ks ++ (rs ++ cs))) ⟨t.span.through (t :: (ks ++ (rs ++ cs))), kind, r, c⟩

inductive IsJoinedTable : List Token → JoinedTable → Prop where
  | intro {rs ts : List Token} {r : Relation} {js : List Join} (relation : IsRelation P rs r)
      (joins : Many (IsJoin P) ts js) :
      IsJoinedTable (rs ++ ts) ⟨r.span.through (rs ++ ts), r, js⟩

/-! ## Clauses -/

inductive IsFrom : List Token → From → Prop where
  | intro {t : Token} {ts : List Token} {tables : List JoinedTable} (kind : t.kind = .keyword .FROM)
      (body : CommaSeparated (IsJoinedTable P) ts tables) :
      IsFrom (t :: ts) ⟨t.span.through (t :: ts), tables⟩

inductive IsGroupBy : List Token → GroupBy → Prop where
  | intro {t u : Token} {ts : List Token} {keys : List Expr} (group : t.kind = .keyword .GROUP)
      (by_ : u.kind = .keyword .BY) (body : CommaSeparated P.wholeExpr ts keys) :
      IsGroupBy (t :: u :: ts) ⟨t.span.through (t :: u :: ts), keys⟩

/-- `DISTINCT` or `ALL`, which is no different from nothing. -/
inductive IsQuantifier : List Token → Bool → Prop where
  | distinct {t : Token} (kind : t.kind = .keyword .DISTINCT) : IsQuantifier [t] true
  | all {ts : List Token} (noise : Noise .ALL ts) : IsQuantifier ts false

inductive IsSelect : List Token → Select → Prop where
  | intro {t : Token} {ds ps fs ws gs hs : List Token} {distinct : Bool}
      {projection : List SelectItem} {f : Option From} {w : Option Expr} {g : Option GroupBy}
      {h : Option Expr} (kind : t.kind = .keyword .SELECT) (quantifier : IsQuantifier ds distinct)
      (items : CommaSeparated (IsSelectItem P) ps projection)
      (source : Optional (IsFrom P) fs f)
      (condition : Optional (Behind (.keyword .WHERE) P.wholeExpr) ws w)
      (groupBy : Optional (IsGroupBy P) gs g)
      (having : Optional (Behind (.keyword .HAVING) P.wholeExpr) hs h) :
      IsSelect (t :: (ds ++ (ps ++ (fs ++ (ws ++ (gs ++ hs))))))
        ⟨t.span.through (t :: (ds ++ (ps ++ (fs ++ (ws ++ (gs ++ hs)))))), distinct, projection,
          f, w, g, h⟩

inductive IsDirection : List Token → Direction → Prop where
  | descending {t : Token} (kind : t.kind = .keyword .DESC) : IsDirection [t] .descending
  | ascending {ts : List Token} (noise : Noise .ASC ts) : IsDirection ts .ascending

/-- `NULLS FIRST` or `NULLS LAST` -/
inductive IsNulls : List Token → NullsPlacement → Prop where
  | intro {ts us : List Token} {n : NullsPlacement} (nulls : IsWord "NULLS" ts)
      (place : IsWord n.word us) : IsNulls (ts ++ us) n

inductive IsOrderItem : List Token → OrderItem → Prop where
  | intro {es ds ns : List Token} {e : Expr} {d : Direction} {n : Option NullsPlacement}
      (item : P.wholeExpr es e) (direction : IsDirection ds d) (nulls : Optional IsNulls ns n) :
      IsOrderItem (es ++ (ds ++ ns)) ⟨e.span.through (es ++ (ds ++ ns)), e, d, n⟩

inductive IsOrderBy : List Token → OrderBy → Prop where
  | intro {t u : Token} {ts : List Token} {items : List OrderItem} (order : t.kind = .keyword .ORDER)
      (by_ : u.kind = .keyword .BY) (body : CommaSeparated (IsOrderItem P) ts items) :
      IsOrderBy (t :: u :: ts) ⟨t.span.through (t :: u :: ts), items⟩

/-- `LIMIT count`, `LIMIT count OFFSET offset` or `LIMIT offset, count`. -/
inductive IsLimit : List Token → Limit → Prop where
  | count {t : Token} {cs os : List Token} {c : Expr} {o : Option Expr}
      (kind : t.kind = .keyword .LIMIT) (count : P.wholeExpr cs c)
      (offset : Optional (Behind (.keyword .OFFSET) P.wholeExpr) os o) :
      IsLimit (t :: (cs ++ os)) ⟨t.span.through (t :: (cs ++ os)), c, o⟩
  | offsetFirst {t : Token} {os cs : List Token} {o c : Expr}
      (allowed : P.comma) (kind : t.kind = .keyword .LIMIT) (offset : P.wholeExpr os o)
      (count : Behind (.punctuation .comma) P.wholeExpr cs c) :
      IsLimit (t :: (os ++ cs)) ⟨t.span.through (t :: (os ++ cs)), c, some o⟩

/-! ## Combining selections -/

/-- A set operator and the selection on its right, combined with `left`. -/
inductive IsSetOperand (left : QueryBody) (op : SetOperator) : List Token → QueryBody → Prop where
  | intro {t : Token} {as ss : List Token} {all : Bool} {right : Select}
      (kind : t.kind = .keyword op.keyword) (quantifier : Flag .ALL as all)
      (select : IsSelect P ss right) :
      IsSetOperand left op (t :: (as ++ ss))
        (.setOperation (left.span.union right.span) left op all right)

/-- What follows the last selection of a query whose selections are read from
`before`. -/
inductive IsQueryTail (before : List Token) (body : QueryBody) : List Token → Query → Prop where
  | intro {os ls : List Token} {o : Option OrderBy} {l : Option Limit}
      (orderBy : Optional (IsOrderBy P) os o) (limit : Optional (IsLimit P) ls l) :
      IsQueryTail before body (os ++ ls)
        ⟨body.span.through (before ++ (os ++ ls)), body, o, l⟩

end

end SqlSyntax.Grammar
