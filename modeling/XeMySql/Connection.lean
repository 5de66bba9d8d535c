import XeMySql.State

/-!
# `CXEMySqlCon` (`xeMySql.cpp`)

`Connect`, `Close` and `Reconnect` of one connection. The messages they print to the console are
left out, except that `mysql_error` is called for them.
-/

namespace XeMySql

open Interact

/-- `"utf8"` -/
def utf8 : Bytes := [0x75, 0x74, 0x66, 0x38]

namespace CXEMySqlCon

/-- `CXEMySqlCon::Close`, and the destructor. -/
def close (c : Nat) : Code Bool := do
  match ← req (.con (.getMySql c)) with
  | some h => req (.lib (.close h))
  | none => pure ()
  pure true

/-- `CXEMySqlCon::Connect` -/
def connect (c : Nat) (p : ConnParams) : Code Bool := do
  let _ ← close c
  req (.con (.setParams c p))
  let m ← req (.lib .init)
  req (.con (.setMySql c m))
  match m with
  | none => pure false
  | some h => do
    if ← req (.lib (.realConnect h p)) then
      -- the source asks once more here whether the handle is NULL, which it is not
      if ← req (.lib (.setCharsetName h utf8)) then
        if ← req (.lib (.setReconnect h)) then pure true else pure false
      else pure false
    else do
      let _ ← req (.lib (.error h))
      pure false

/-- `CXEMySqlCon::Reconnect` -/
def reconnect (c : Nat) : Code Bool := do
  match ← req (.lib .init) with
  | none => do
    -- `mysql_real_connect` dereferences the NULL it is given
    let r ← req (.rt .crash)
    nomatch r
  | some temp => do
    let p ← req (.con (.getParams c))
    if ← req (.lib (.realConnect temp p)) then do
      match ← req (.con (.getMySql c)) with
      | some h => req (.lib (.close h))
      | none => pure ()
      req (.con (.setMySql c (some temp)))
      pure true
    else do
      let _ ← req (.lib (.error temp))
      req (.lib (.close temp))
      pure false

end CXEMySqlCon

end XeMySql
