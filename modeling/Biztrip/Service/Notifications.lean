import Biztrip.Service.Pages

/-!
# Notifications

`app/services/notifications.py`: listing one's own notifications, and marking one as read.
-/

namespace Biztrip.Notifications

open Biztrip.Lib

structure NotificationOut where
  id : Int
  type : NotificationType
  title : String
  body : String
  linkUrl : Option String
  isRead : Bool
  createdAt : Instant
  deriving DecidableEq

/-- The number of unread notifications does not depend on the filter. -/
structure NotificationPage extends Page NotificationOut where
  unread : Nat
  deriving DecidableEq

def toOut (id : Int) (row : Notification) : NotificationOut :=
  { id, type := row.type, title := row.title, body := row.body, linkUrl := row.linkUrl
    isRead := row.isRead, createdAt := row.createdAt }

/-- The newest notification first. -/
def listNotifications (s : Store) (user : CurrentUser) (unreadOnly : Bool) (paging : Paging) :
    Result NotificationPage := do
  let page ← selectPage paging (fun p => toLex (-p.2.createdAt, -p.1))
    (fun p => return toOut p.1 p.2)
    (s.notifications.rows.filter fun p =>
      decide (p.2.userId = user.id) && (!unreadOnly || !p.2.isRead))
  let unread := s.notifications.rows.filter fun p =>
    decide (p.2.userId = user.id) && !p.2.isRead
  return { page with unread := unread.length }

/-- Somebody else's notification is treated as missing. -/
def markRead (s : Store) (env : Env) (user : CurrentUser) (notificationId : Int) : Result Plan := do
  let notification ← sessionGet s.notifications notificationId
  let notification ← getE (notification.filter fun n => n.userId = user.id) <| .app <|
    notFoundError "NOTIFICATION_NOT_FOUND" "알림을 찾을 수 없습니다"
  return {
    now := env.txnNow
    writes :=
      [.notification (.update notificationId notification { notification with isRead := true })] }

end Biztrip.Notifications
