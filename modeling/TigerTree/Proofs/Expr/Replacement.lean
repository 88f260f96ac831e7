import TigerTree.Proofs.Expr.Position

set_option autoImplicit false

/-!
What stands in a tree after a replacement.

Where an edge leads, a modified node has the modified child. Where any other edge leads, it has the
child it had.
-/

namespace TigerTree.Expr

variable {f : Expr → Expr} {expr child : Expr} {edge edge' : Edge}

theorem at?_cons (present : expr.child? edge = some child) (path : List Edge) :
    expr.at? (edge :: path) = child.at? path := by
  rw [at?, present, Option.bind_some]

theorem child?_modifyChild_self :
    (expr.modifyChild f edge).child? edge = (expr.child? edge).map f := by
  cases edge with
  | element index =>
      cases expr with
      | sequence exprs => exact List.getElem?_modify_eq f index exprs
      | _ => rfl
  | declaration index =>
      cases expr with
      | letIn decls body => exact List.getElem?_modify_eq f index decls
      | _ => rfl
  | bodyElement index =>
      cases expr with
      | letIn decls body => exact List.getElem?_modify_eq f index body
      | _ => rfl
  | param index =>
      cases expr with
      | funDecl name params typeName body =>
          rw [modifyChild, child?, child?, List.getElem?_modify_eq]
          cases params[index]? with
          | none => rfl
          | some param => rfl
      | _ => rfl
  | arg index =>
      cases expr with
      | funCall name args => exact List.getElem?_modify_eq f index args
      | _ => rfl
  | _ =>
      cases expr with
      | _ => rfl

theorem child?_modifyChild_of_ne (other : edge ≠ edge') :
    (expr.modifyChild f edge).child? edge' = expr.child? edge' := by
  unfold modifyChild
  split
  all_goals cases edge'
  -- An edge of another form leads to a part that is not touched. One of the same form is ruled out,
  -- or leads to another place of the same list.
  all_goals try rfl
  all_goals simp_all [child?]

theorem mapInit_id : VarDecl.mapInit (id : Expr → Expr) = id := by
  funext decl
  simp [VarDecl.mapInit]

theorem modifyChild_id : expr.modifyChild id edge = expr := by
  unfold modifyChild
  split <;> simp [mapInit_id]

end TigerTree.Expr
