import GraphWeave.Text.Case

/-!
Listen addresses: `host:port`, the host in brackets when it holds colons, the port a number or a
service name. The empty address is the HTTP port on every interface.
-/

namespace GraphWeave.Server

/-- Why a listen address is refused. -/
inductive AddressError where
  /-- The address does not split into host and port. -/
  | malformed (address why : String)
  /-- The port number is out of range. -/
  | invalidPort (port : String)
  /-- The port is a service name that is not known. -/
  | unknownPort (port : String)
deriving DecidableEq, Repr, Inhabited

/-- The message of an address error. -/
def AddressError.message : AddressError → String
  | .malformed address why => "address " ++ address ++ ": " ++ why
  | .invalidPort port => "address " ++ port ++ ": invalid port"
  | .unknownPort port => "lookup tcp/" ++ port ++ ": unknown port"

/-- Splits an address into host and port at its last colon; a bracketed host must close just
before it. -/
def splitHostPort (address : String) : Except AddressError (String × String) :=
  let cs := address.toList
  let fail (why : String) : Except AddressError (String × String) := .error (.malformed address why)
  -- the port starts after the last colon
  match (List.range cs.length).reverse.find? (fun i => cs[i]? == some ':') with
  | none => fail "missing port in address"
  | some colon =>
    let port := String.ofList (cs.drop (colon + 1))
    let checked (host : String) (from1 from2 : Nat) : Except AddressError (String × String) :=
      if (cs.drop from1).contains '[' then fail "unexpected '[' in address"
      else if (cs.drop from2).contains ']' then fail "unexpected ']' in address"
      else .ok (host, port)
    if cs.head? == some '[' then
      match (List.range cs.length).find? (fun i => cs[i]? == some ']') with
      | none => fail "missing ']' in address"
      | some close =>
        if close + 1 == cs.length then fail "missing port in address"
        else if close + 1 == colon then
          checked (String.ofList ((cs.take close).drop 1)) 1 (close + 1)
        else if cs[close + 1]? == some ':' then fail "too many colons in address"
        else fail "missing port in address"
    else
      let host := cs.take colon
      if host.contains ':' then fail "too many colons in address"
      else checked (String.ofList host) 0 0

/-- Reads a port number: an optional sign and digits, a huge one held at a bound past the
range. None when it is not a number. -/
def portNumber? (service : String) : Option Int :=
  if service.isEmpty then some 0
  else
    let cs := service.toList
    let (negative, digits) := match cs with
      | '-' :: rest => (true, rest)
      | '+' :: rest => (false, rest)
      | _ => (false, cs)
    if !digits.all Char.isDigit then none
    else
      let n := digits.foldl (fun (n : Nat) c => min (Nat.pow 2 32) (10 * n + (c.toNat - 48))) 0
      let cutoff := Nat.pow 2 30
      if negative then some (-(min n cutoff : Int)) else some (min n (cutoff - 1))

/-- The service names known without a lookup, and their TCP ports. -/
def services : List (String × Nat) :=
  [("ftp", 21), ("ftps", 990), ("gopher", 70), ("http", 80), ("https", 443), ("imap2", 143),
   ("imap3", 220), ("imaps", 993), ("pop3", 110), ("pop3s", 995), ("smtp", 25),
   ("submissions", 465), ("ssh", 22), ("telnet", 23)]

/-- The port of a service: a number in range, or a known name in any case. -/
def portOf (service : String) : Except AddressError Nat :=
  match portNumber? service with
  | some n => if 0 ≤ n ∧ n ≤ 65535 then .ok n.toNat else .error (.invalidPort service)
  | none =>
    match services.lookup (lowerCase service) with
    | some n => .ok n
    | none => .error (.unknownPort service)

/-- Checks an address to listen on, giving its host and port. -/
def checkListen (address : String) : Except AddressError (String × Nat) := do
  let address := if address.isEmpty then ":http" else address
  let (host, service) ← splitHostPort address
  let port ← portOf service
  pure (host, port)

end GraphWeave.Server
