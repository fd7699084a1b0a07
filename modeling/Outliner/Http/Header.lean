import Outliner.Text.Blank
/-!
# Request headers

The bearer token of an `Authorization` header, and the address a request comes from: the first hop
of `X-Forwarded-For` when that header is set, else the host part of the peer address.
-/

set_option autoImplicit false

namespace Outliner.Http

def bearerToken (header : String) : String :=
  let h := Text.trimBlank header
  if h.startsWith "Bearer " then Text.trimBlank (String.ofList (h.toList.drop 7)) else ""

/-- The host and port of an address `host:port` or `[host]:port`; `none` when the address has
no port, too many colons, or brackets out of place. -/
def splitHostPort (a : String) : Option (String × String) :=
  let cs := a.toList
  -- the port starts after the last colon
  match (cs.reverse.findIdx? (· = ':')) with
  | none => none
  | some ri =>
    let i := cs.length - 1 - ri
    let port := String.ofList (cs.drop (i + 1))
    if cs.head? = some '[' then
      match cs.findIdx? (· = ']') with
      | none => none
      | some e =>
        if e + 1 = cs.length then none
        else if e + 1 ≠ i then none
        else
          let host := (cs.take e).drop 1
          if (cs.drop 1).contains '[' then none
          else if (cs.drop (e + 1)).contains ']' then none
          else some (String.ofList host, port)
    else
      let host := cs.take i
      if host.contains ':' then none
      else if cs.contains '[' then none
      else if cs.contains ']' then none
      else some (String.ofList host, port)

def clientIp (forwarded remoteAddr : String) : String :=
  if forwarded ≠ "" then
    Text.trimBlank (String.ofList (forwarded.toList.takeWhile (· ≠ ',')))
  else
    match splitHostPort remoteAddr with
    | some (h, _) => h
    | none => remoteAddr

end Outliner.Http
