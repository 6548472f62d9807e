import Vmdesk.Text

/-! Inspection and rewriting of session descriptions, on their text alone. -/
namespace Vmdesk.Sdp
open Text

def lines (sdp : Text) : List Text :=
  ((sdp.splitOn '\n').map (fun l => (stripSuffixChar '\r' l).getD l)).filter (fun l => !l.isEmpty)

def hasMedia (sdp kind : Text) : Bool :=
  let lead := "m=".toList ++ kind ++ " ".toList
  (lines sdp).any (fun l => lead.isPrefixOf l)

def candidateLead : Text := "a=candidate:".toList

def candidateCount (sdp : Text) : Nat :=
  ((lines sdp).filter (fun l => candidateLead.isPrefixOf l)).length

structure Candidate where
  foundation : Text
  component : Text
  transport : Text
  priority : Text
  address : Text
  port : Text
  typ : Text
  rest : Text
  deriving DecidableEq, Repr

/- Everything behind the eighth token: the remaining tokens are joined by single
spaces and the joined text is looked up in the line, from its end. -/
def extensionOf (line : Text) (tokens : List Text) : Option Text :=
  let rest := join " ".toList tokens
  if rest.isEmpty then some [] else do
    let idx ← rfind rest line
    some (line.drop idx)

def parseCandidate (line : Text) : Option Candidate := do
  let body ← stripPrefix candidateLead line
  match splitAsciiWhitespace body with
  | foundation::component::transport::priority::address::port::mark::typ::tokens =>
    if mark ≠ "typ".toList then none else do
      let rest ← extensionOf line tokens
      some ⟨foundation,component,transport,priority,address,port,typ,rest⟩
  | _ => none

def Candidate.withAddress (c : Candidate) (address : Text) : Text :=
  let s := candidateLead ++ join " ".toList
    [c.foundation,c.component,c.transport,c.priority,address,c.port,"typ".toList,c.typ]
  if c.rest.isEmpty then s else s ++ " ".toList ++ c.rest

def connectionLead : Text := "c=IN IP4 ".toList

def Candidate.key (c : Candidate) (publicIp : Text) : Text :=
  toAsciiLowercase c.transport ++ "|".toList ++ publicIp ++ "|".toList ++ c.port

def rewriteLine (publicIp : Text) (seen : List Text) (line : Text) : Option Text × List Text :=
  match parseCandidate line with
  | some c =>
    if c.typ = "host".toList then
      if c.key publicIp ∈ seen then (none,seen)
      else (some (c.withAddress publicIp),seen ++ [c.key publicIp])
    else (some line,seen)
  | none => match stripPrefix connectionLead line with
    | some rest =>
      if trimEnd rest ≠ "0.0.0.0".toList then (some (connectionLead ++ publicIp),seen)
      else (some line,seen)
    | none => (some line,seen)

def rewriteLines (publicIp : Text) : List Text → List Text → List Text
  | _,[] => []
  | seen,line::rest =>
    let (out,seen) := rewriteLine publicIp seen line
    out.toList ++ rewriteLines publicIp seen rest

def rewriteHostCandidates (sdp publicIp : Text) : Text :=
  let eol := if (rfind "\r\n".toList sdp).isSome then "\r\n".toList else "\n".toList
  (rewriteLines publicIp [] (lines sdp)).flatMap (fun line => line ++ eol)

end Vmdesk.Sdp
