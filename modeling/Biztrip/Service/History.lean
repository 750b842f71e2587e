import Biztrip.Lib.Query
import Biztrip.Model.Writes

/-!
# History and notifications

`app/services/history.py`: every transition goes through `recordTransition`,
which writes the log row and, unless the recipient is the one who acted, the
notification.
-/

namespace Biztrip

open Biztrip.Lib

/-- The row of the authenticated user, with its key. -/
structure CurrentUser extends User where
  id : Int

structure NotifySpec where
  userId : Int
  type : NotificationType
  title : String
  body : String
  linkUrl : Option String := none

/-- What a transition leaves in the history. -/
structure Transition where
  actorId : Int
  action : ActivityAction
  fromStatus : Option String := none
  toStatus : Option String := none
  memo : Option String := none
  notify : Option NotifySpec := none

def Transition.logRow (tr : Transition) (env : Env) (entityType : EntityType) : ActivityLog :=
  { entityType, entityId := 0, actorId := tr.actorId, action := tr.action
    fromStatus := tr.fromStatus, toStatus := tr.toStatus, memo := tr.memo, createdAt := env.txnNow }

/-- Nobody is notified of what they did themselves. -/
def Transition.notificationWrites (tr : Transition) (env : Env) : List Write :=
  match tr.notify with
  | none => []
  | some n =>
    if n.userId = tr.actorId then []
    else [.notification (.insert
      { userId := n.userId, type := n.type, title := n.title, body := n.body, linkUrl := n.linkUrl
        isRead := false, createdAt := env.txnNow })]

def recordTransition (env : Env) (entityType : EntityType) (entity : EntityRef) (tr : Transition) :
    List Write :=
  .log entity (tr.logRow env entityType) :: tr.notificationWrites env

/-- The rows `list_timeline` and `list_report_timeline` select, by `created_at` and `id`. -/
def timelineRows (s : Store) (entityType : EntityType) (entityId : Int) :
    List (Int × ActivityLog) :=
  orderBy (fun p => toLex (p.2.createdAt, p.1)) <|
    s.activityLog.rows.filter fun p => p.2.entityType = entityType ∧ p.2.entityId = entityId

end Biztrip
