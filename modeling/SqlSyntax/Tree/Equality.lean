import SqlSyntax.Tree.Statement

/-!
# Equality of syntax trees

Two trees are the same when they have the same nodes with the same spans.

## Main results

* `Expr.same_iff`, `Query.same_iff` — the test for sameness decides equality.
-/

namespace SqlSyntax

/-! ## Expressions and queries -/

mutual

def Expr.same : Expr → Expr → Bool
  | ⟨s, f⟩, ⟨s', f'⟩ => s == s' && f.same f'

def ExprForm.same : ExprForm → ExprForm → Bool
  | .column n, .column n' => n == n'
  | .literal v, .literal v' => v == v'
  | .unary op e, .unary op' e' => op == op' && e.same e'
  | .binary op l r, .binary op' l' r' => op == op' && l.same l' && r.same r'
  | .is e b t, .is e' b' t' => e.same e' && b == b' && t == t'
  | .inList e b es, .inList e' b' es' => e.same e' && b == b' && Expr.sameList es es'
  | .inQuery e b q, .inQuery e' b' q' => e.same e' && b == b' && q.same q'
  | .between e b l h, .between e' b' l' h' =>
    e.same e' && b == b' && l.same l' && h.same h'
  | .like e b p, .like e' b' p' => e.same e' && b == b' && p.same p'
  | .call n b as, .call n' b' as' => n == n' && b == b' && as.same as'
  | .case o bs e, .case o' bs' e' =>
    Expr.sameOption o o' && WhenBranch.sameList bs bs' && Expr.sameOption e e'
  | .cast e t, .cast e' t' => e.same e' && t == t'
  | .existsQuery q, .existsQuery q' => q.same q'
  | .subquery q, .subquery q' => q.same q'
  | .nested e, .nested e' => e.same e'
  | _, _ => false

def Expr.sameList : List Expr → List Expr → Bool
  | [], [] => true
  | e :: es, e' :: es' => e.same e' && Expr.sameList es es'
  | _, _ => false

def Expr.sameOption : Option Expr → Option Expr → Bool
  | none, none => true
  | some e, some e' => e.same e'
  | _, _ => false

def Arguments.same : Arguments → Arguments → Bool
  | .star, .star => true
  | .list es, .list es' => Expr.sameList es es'
  | _, _ => false

def WhenBranch.sameList : List WhenBranch → List WhenBranch → Bool
  | [], [] => true
  | ⟨s, c, r⟩ :: bs, ⟨s', c', r'⟩ :: bs' =>
    s == s' && c.same c' && r.same r' && WhenBranch.sameList bs bs'
  | _, _ => false

def Query.same : Query → Query → Bool
  | ⟨s, b, o, l⟩, ⟨s', b', o', l'⟩ =>
    s == s' && b.same b' && OrderBy.sameOption o o' && Limit.sameOption l l'

def QueryBody.same : QueryBody → QueryBody → Bool
  | .select s, .select s' => s.same s'
  | .setOperation s l op a r, .setOperation s' l' op' a' r' =>
    s == s' && l.same l' && op == op' && a == a' && r.same r'
  | _, _ => false

def Select.same : Select → Select → Bool
  | ⟨s, d, p, f, w, g, h⟩, ⟨s', d', p', f', w', g', h'⟩ =>
    s == s' && d == d' && SelectItem.sameList p p' && From.sameOption f f'
      && Expr.sameOption w w' && GroupBy.sameOption g g' && Expr.sameOption h h'

def SelectItem.same : SelectItem → SelectItem → Bool
  | .wildcard s, .wildcard s' => s == s'
  | .qualifiedWildcard s q, .qualifiedWildcard s' q' => s == s' && q == q'
  | .expr s e a, .expr s' e' a' => s == s' && e.same e' && a == a'
  | _, _ => false

def SelectItem.sameList : List SelectItem → List SelectItem → Bool
  | [], [] => true
  | i :: is, i' :: is' => i.same i' && SelectItem.sameList is is'
  | _, _ => false

def From.sameOption : Option From → Option From → Bool
  | none, none => true
  | some ⟨s, ts⟩, some ⟨s', ts'⟩ => s == s' && JoinedTable.sameList ts ts'
  | _, _ => false

def JoinedTable.sameList : List JoinedTable → List JoinedTable → Bool
  | [], [] => true
  | ⟨s, r, js⟩ :: ts, ⟨s', r', js'⟩ :: ts' =>
    s == s' && r.same r' && Join.sameList js js' && JoinedTable.sameList ts ts'
  | _, _ => false

def Relation.same : Relation → Relation → Bool
  | .table s n a, .table s' n' a' => s == s' && n == n' && a == a'
  | .derived s q a, .derived s' q' a' => s == s' && q.same q' && a == a'
  | _, _ => false

def Join.sameList : List Join → List Join → Bool
  | [], [] => true
  | ⟨s, k, r, c⟩ :: js, ⟨s', k', r', c'⟩ :: js' =>
    s == s' && k == k' && r.same r' && c.same c' && Join.sameList js js'
  | _, _ => false

def JoinCondition.same : JoinCondition → JoinCondition → Bool
  | .on e, .on e' => e.same e'
  | .shared cs, .shared cs' => cs == cs'
  | .none, .none => true
  | _, _ => false

def GroupBy.sameOption : Option GroupBy → Option GroupBy → Bool
  | none, none => true
  | some ⟨s, ks⟩, some ⟨s', ks'⟩ => s == s' && Expr.sameList ks ks'
  | _, _ => false

def OrderBy.sameOption : Option OrderBy → Option OrderBy → Bool
  | none, none => true
  | some ⟨s, is⟩, some ⟨s', is'⟩ => s == s' && OrderItem.sameList is is'
  | _, _ => false

def OrderItem.sameList : List OrderItem → List OrderItem → Bool
  | [], [] => true
  | ⟨s, e, d, n⟩ :: is, ⟨s', e', d', n'⟩ :: is' =>
    s == s' && e.same e' && d == d' && n == n' && OrderItem.sameList is is'
  | _, _ => false

def Limit.sameOption : Option Limit → Option Limit → Bool
  | none, none => true
  | some ⟨s, c, o⟩, some ⟨s', c', o'⟩ => s == s' && c.same c' && Expr.sameOption o o'
  | _, _ => false

end

mutual

theorem Expr.same_iff : (a b : Expr) → (a.same b ↔ a = b)
  | ⟨s, f⟩, ⟨s', f'⟩ => by simp [Expr.same, ExprForm.same_iff f f']

theorem ExprForm.same_iff (a b : ExprForm) : a.same b ↔ a = b := by
  cases a <;> cases b <;> simp [ExprForm.same]
  case unary e _ e' => simp [Expr.same_iff e e']
  case binary l r _ l' r' => simp [Expr.same_iff l l', Expr.same_iff r r', and_assoc]
  case is e _ _ e' _ _ => simp [Expr.same_iff e e', and_assoc]
  case inList e _ es e' _ es' =>
    simp [Expr.same_iff e e', Expr.sameList_iff es es', and_assoc]
  case inQuery e _ q e' _ q' => simp [Expr.same_iff e e', Query.same_iff q q', and_assoc]
  case between e _ l h e' _ l' h' =>
    simp [Expr.same_iff e e', Expr.same_iff l l', Expr.same_iff h h', and_assoc]
  case like e _ p e' _ p' => simp [Expr.same_iff e e', Expr.same_iff p p', and_assoc]
  case call as _ _ as' => simp [Arguments.same_iff as as', and_assoc]
  case case o bs e o' bs' e' =>
    simp [Expr.sameOption_iff o o', WhenBranch.sameList_iff bs bs', Expr.sameOption_iff e e',
      and_assoc]
  case cast e _ e' _ => simp [Expr.same_iff e e']
  case existsQuery q q' => exact Query.same_iff q q'
  case subquery q q' => exact Query.same_iff q q'
  case nested e e' => exact Expr.same_iff e e'

theorem Expr.sameList_iff : (as bs : List Expr) → (Expr.sameList as bs ↔ as = bs)
  | [], [] => by simp [Expr.sameList]
  | [], _ :: _ => by simp [Expr.sameList]
  | _ :: _, [] => by simp [Expr.sameList]
  | a :: as, b :: bs => by
    simp [Expr.sameList, Expr.same_iff a b, Expr.sameList_iff as bs]

theorem Expr.sameOption_iff : (a b : Option Expr) → (Expr.sameOption a b ↔ a = b)
  | none, none => by simp [Expr.sameOption]
  | none, some _ => by simp [Expr.sameOption]
  | some _, none => by simp [Expr.sameOption]
  | some a, some b => by simp [Expr.sameOption, Expr.same_iff a b]

theorem Arguments.same_iff : (a b : Arguments) → (a.same b ↔ a = b)
  | .star, .star => by simp [Arguments.same]
  | .star, .list _ => by simp [Arguments.same]
  | .list _, .star => by simp [Arguments.same]
  | .list as, .list bs => by simp [Arguments.same, Expr.sameList_iff as bs]

theorem WhenBranch.sameList_iff : (as bs : List WhenBranch) →
    (WhenBranch.sameList as bs ↔ as = bs)
  | [], [] => by simp [WhenBranch.sameList]
  | [], _ :: _ => by simp [WhenBranch.sameList]
  | _ :: _, [] => by simp [WhenBranch.sameList]
  | ⟨_, c, r⟩ :: as, ⟨_, c', r'⟩ :: bs => by
    simp [WhenBranch.sameList, Expr.same_iff c c', Expr.same_iff r r',
      WhenBranch.sameList_iff as bs, and_assoc]

theorem Query.same_iff : (a b : Query) → (a.same b ↔ a = b)
  | ⟨_, b, o, l⟩, ⟨_, b', o', l'⟩ => by
    simp [Query.same, QueryBody.same_iff b b', OrderBy.sameOption_iff o o',
      Limit.sameOption_iff l l', and_assoc]

theorem QueryBody.same_iff : (a b : QueryBody) → (a.same b ↔ a = b)
  | .select s, .select s' => by simp [QueryBody.same, Select.same_iff s s']
  | .select _, .setOperation .. => by simp [QueryBody.same]
  | .setOperation .., .select _ => by simp [QueryBody.same]
  | .setOperation _ l _ _ r, .setOperation _ l' _ _ r' => by
    simp [QueryBody.same, QueryBody.same_iff l l', Select.same_iff r r', and_assoc]

theorem Select.same_iff : (a b : Select) → (a.same b ↔ a = b)
  | ⟨_, _, p, f, w, g, h⟩, ⟨_, _, p', f', w', g', h'⟩ => by
    simp [Select.same, SelectItem.sameList_iff p p', From.sameOption_iff f f',
      Expr.sameOption_iff w w', GroupBy.sameOption_iff g g', Expr.sameOption_iff h h', and_assoc]

theorem SelectItem.same_iff (a b : SelectItem) : a.same b ↔ a = b := by
  cases a <;> cases b <;> simp [SelectItem.same]
  case expr e _ _ e' _ => simp [Expr.same_iff e e', and_assoc]

theorem SelectItem.sameList_iff : (as bs : List SelectItem) →
    (SelectItem.sameList as bs ↔ as = bs)
  | [], [] => by simp [SelectItem.sameList]
  | [], _ :: _ => by simp [SelectItem.sameList]
  | _ :: _, [] => by simp [SelectItem.sameList]
  | a :: as, b :: bs => by
    simp [SelectItem.sameList, SelectItem.same_iff a b, SelectItem.sameList_iff as bs]

theorem From.sameOption_iff : (a b : Option From) → (From.sameOption a b ↔ a = b)
  | none, none => by simp [From.sameOption]
  | none, some _ => by simp [From.sameOption]
  | some _, none => by simp [From.sameOption]
  | some ⟨_, ts⟩, some ⟨_, ts'⟩ => by
    simp [From.sameOption, JoinedTable.sameList_iff ts ts']

theorem JoinedTable.sameList_iff :
    (as bs : List JoinedTable) → (JoinedTable.sameList as bs ↔ as = bs)
  | [], [] => by simp [JoinedTable.sameList]
  | [], _ :: _ => by simp [JoinedTable.sameList]
  | _ :: _, [] => by simp [JoinedTable.sameList]
  | ⟨_, r, js⟩ :: as, ⟨_, r', js'⟩ :: bs => by
    simp [JoinedTable.sameList, Relation.same_iff r r', Join.sameList_iff js js',
      JoinedTable.sameList_iff as bs, and_assoc]

theorem Relation.same_iff (a b : Relation) : a.same b ↔ a = b := by
  cases a <;> cases b <;> simp [Relation.same, and_assoc]
  case derived q _ _ q' _ => simp [Query.same_iff q q']

theorem Join.sameList_iff : (as bs : List Join) → (Join.sameList as bs ↔ as = bs)
  | [], [] => by simp [Join.sameList]
  | [], _ :: _ => by simp [Join.sameList]
  | _ :: _, [] => by simp [Join.sameList]
  | ⟨_, _, r, c⟩ :: as, ⟨_, _, r', c'⟩ :: bs => by
    simp [Join.sameList, Relation.same_iff r r', JoinCondition.same_iff c c',
      Join.sameList_iff as bs, and_assoc]

theorem JoinCondition.same_iff (a b : JoinCondition) : a.same b ↔ a = b := by
  cases a <;> cases b <;> simp [JoinCondition.same]
  case on e e' => exact Expr.same_iff e e'

theorem GroupBy.sameOption_iff : (a b : Option GroupBy) → (GroupBy.sameOption a b ↔ a = b)
  | none, none => by simp [GroupBy.sameOption]
  | none, some _ => by simp [GroupBy.sameOption]
  | some _, none => by simp [GroupBy.sameOption]
  | some ⟨_, ks⟩, some ⟨_, ks'⟩ => by simp [GroupBy.sameOption, Expr.sameList_iff ks ks']

theorem OrderBy.sameOption_iff : (a b : Option OrderBy) → (OrderBy.sameOption a b ↔ a = b)
  | none, none => by simp [OrderBy.sameOption]
  | none, some _ => by simp [OrderBy.sameOption]
  | some _, none => by simp [OrderBy.sameOption]
  | some ⟨_, is⟩, some ⟨_, is'⟩ => by
    simp [OrderBy.sameOption, OrderItem.sameList_iff is is']

theorem OrderItem.sameList_iff : (as bs : List OrderItem) → (OrderItem.sameList as bs ↔ as = bs)
  | [], [] => by simp [OrderItem.sameList]
  | [], _ :: _ => by simp [OrderItem.sameList]
  | _ :: _, [] => by simp [OrderItem.sameList]
  | ⟨_, e, _, _⟩ :: as, ⟨_, e', _, _⟩ :: bs => by
    simp [OrderItem.sameList, Expr.same_iff e e', OrderItem.sameList_iff as bs, and_assoc]

theorem Limit.sameOption_iff : (a b : Option Limit) → (Limit.sameOption a b ↔ a = b)
  | none, none => by simp [Limit.sameOption]
  | none, some _ => by simp [Limit.sameOption]
  | some _, none => by simp [Limit.sameOption]
  | some ⟨_, c, o⟩, some ⟨_, c', o'⟩ => by
    simp [Limit.sameOption, Expr.same_iff c c', Expr.sameOption_iff o o', and_assoc]

end

instance : DecidableEq Expr := fun a b => decidable_of_iff (a.same b = true) (Expr.same_iff a b)

instance : DecidableEq Query := fun a b =>
  decidable_of_iff (a.same b = true) (Query.same_iff a b)

/-! ## Statements -/

deriving instance DecidableEq for InsertSource
deriving instance DecidableEq for Insert
deriving instance DecidableEq for Assignment
deriving instance DecidableEq for Update
deriving instance DecidableEq for Delete
deriving instance DecidableEq for ColumnOption
deriving instance DecidableEq for ColumnDefinition
deriving instance DecidableEq for CreateTable
deriving instance DecidableEq for Alteration
deriving instance DecidableEq for AlterTable
deriving instance DecidableEq for Statement

end SqlSyntax
