import Mathlib.Data.BitVec

/-!
# Identifiers and errors

`PlayerId`, `RoomId` and the error enumerations of the `domain` and `application` crates, with the
conversions that turn a domain or repository error into the error a client sees.
-/

namespace LongshipX

/-- `uuid::Uuid`. -/
abbrev Uuid := BitVec 128

structure PlayerId where
  uuid : Uuid
  deriving DecidableEq, Repr

structure RoomId where
  uuid : Uuid
  deriving DecidableEq, Repr

inductive DomainError where
  | invalidValue (field reason : String)
  | roomFull (room : RoomId)
  | roomClosed (room : RoomId)
  | notMember (player : Uuid) (room : RoomId)
  | illegalTransition (source target : String)
  deriving DecidableEq, Repr

/-- `Display for DomainError`; `uuidText` prints an id. -/
def DomainError.toText (uuidText : Uuid → String) : DomainError → String
  | .invalidValue field reason => field ++ " 不合法: " ++ reason
  | .roomFull room => "房间 " ++ uuidText room.uuid ++ " 已满"
  | .roomClosed room => "房间 " ++ uuidText room.uuid ++ " 已关闭"
  | .notMember player room => "玩家 " ++ uuidText player ++ " 不在房间 " ++ uuidText room.uuid ++ " 中"
  | .illegalTransition source target => "房间状态机不允许从 " ++ source ++ " 迁移到 " ++ target

inductive AppError where
  | validation (message : String)
  | unauthorized (message : String)
  | forbidden (message : String)
  | notFound (message : String)
  | conflict (message : String)
  | busy
  | rateLimited
  | storage (message : String)
  | postCommit (message : String)
  | internal (message : String)
  deriving DecidableEq, Repr

inductive RepoError where
  | storage (message : String)
  | conflict (message : String)
  deriving DecidableEq, Repr

/-- `Display for RepoError`. -/
def RepoError.toText : RepoError → String
  | .storage message => "存储故障: " ++ message
  | .conflict message => "数据冲突: " ++ message

/-- `Display for AppError`. -/
def AppError.toText : AppError → String
  | .validation message => "输入不合法: " ++ message
  | .unauthorized message => "未鉴权: " ++ message
  | .forbidden message => "禁止操作: " ++ message
  | .notFound message => "资源不存在: " ++ message
  | .conflict message => "状态冲突: " ++ message
  | .busy => "服务繁忙,请稍后重试"
  | .rateLimited => "请求过于频繁"
  | .storage message => "存储故障: " ++ message
  | .postCommit message => "数据已提交,事件发布失败,请勿重试整个操作: " ++ message
  | .internal message => "内部错误: " ++ message

/-- `impl From<DomainError> for AppError`. -/
def AppError.ofDomain : DomainError → AppError
  | .invalidValue field reason => .validation s!"{field}: {reason}"
  | .roomFull _ => .conflict "房间已满"
  | .roomClosed _ => .conflict "房间已关闭"
  | .notMember _ _ => .validation "不在该房间中"
  | .illegalTransition _ _ => .internal "非法状态迁移"

/-- `impl From<RepoError> for AppError`. -/
def AppError.ofRepo : RepoError → AppError
  | .conflict reason => .conflict reason
  | .storage reason => .storage reason

end LongshipX
