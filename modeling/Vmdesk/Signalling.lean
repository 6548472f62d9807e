import Vmdesk.Session

/-! The signalling request at both ends: what the server answers to an offer and what the client
makes of it. A body comes with what it reads as, so that the spelling of JSON does not matter. -/
namespace Vmdesk
open Session (SessionError)

structure SessionDescription where
  kind : Text
  sdp : Text
  deriving DecidableEq, Repr

namespace SessionDescription

def answer (sdp : Text) : SessionDescription := ⟨"answer".toList,sdp⟩

def isOffer (d : SessionDescription) : Bool := d.kind == "offer".toList

end SessionDescription

namespace Signalling

inductive StatusCode where | ok | badRequest | internalServerError
  deriving DecidableEq, Repr

def StatusCode.isSuccess : StatusCode → Bool
  | ok => true
  | badRequest | internalServerError => false

def StatusCode.display : StatusCode → String
  | ok => "200 OK"
  | badRequest => "400 Bad Request"
  | internalServerError => "500 Internal Server Error"

/- A text, with the description and the error message it reads as. -/
structure Body where
  text : String
  description : Option SessionDescription
  error : Option String

structure Response where
  status : StatusCode
  body : Body

section Server
variable (spell : SessionDescription ⊕ String → String)

def errorResponse (status : StatusCode) (message : String) : Response :=
  ⟨status,⟨spell (.inr message),none,some message⟩⟩

def descriptionResponse (d : SessionDescription) : Response :=
  ⟨.ok,⟨spell (.inl d),some d,none⟩⟩

def respond : Except SessionError Text → Response
  | .ok sdp => descriptionResponse spell (.answer sdp)
  | .error (.badOffer message) => errorResponse spell .badRequest message
  | .error (.internal message) => errorResponse spell .internalServerError message

def offer (desc : SessionDescription) : Response ⊕ Text :=
  if !desc.isOffer then .inl (errorResponse spell .badRequest
    ("expected type \"offer\", got \"" ++ String.ofList desc.kind ++ "\""))
  else .inr desc.sdp

end Server

def exchangeOffer (response : Response) : Except String Text :=
  if !response.status.isSuccess then .error ("server rejected the offer (" ++
    response.status.display ++ "): " ++ response.body.error.getD response.body.text)
  else match response.body.description with
    | none => .error "parsing answer JSON"
    | some answer => if answer.kind ≠ "answer".toList
        then .error ("expected an answer, got type " ++ (String.ofList answer.kind).quote)
        else .ok answer.sdp

section Exchange
variable (spell : SessionDescription ⊕ String → String)

theorem answered (sdp : Text) :
    exchangeOffer (descriptionResponse spell (.answer sdp)) = .ok sdp :=
  (if_neg Bool.false_ne_true).trans (if_neg (fun other => other rfl))

theorem rejected {status : StatusCode} (fails : status.isSuccess = false) (message : String) :
    exchangeOffer (errorResponse spell status message) = .error ("server rejected the offer (" ++
      status.display ++ "): " ++ message) := by
  unfold exchangeOffer errorResponse
  rw [fails]
  rfl

theorem exchangeRespond (result : Except SessionError Text) (answer : Text) :
    exchangeOffer (respond spell result) = .ok answer ↔ result = .ok answer := by
  cases result with
  | ok sdp => rw [respond,answered,Except.ok.injEq,Except.ok.injEq]
  | error e =>
    have fails : exchangeOffer (respond spell (.error e)) ≠ .ok answer := by
      cases e with
      | badOffer message | internal message =>
        rw [respond,rejected spell rfl]
        exact fun same => nomatch same
    exact ⟨fun same => absurd same fails,fun same => nomatch same⟩

end Exchange

end Signalling
end Vmdesk
