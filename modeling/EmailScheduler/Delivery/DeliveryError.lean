import EmailScheduler.Foundation.Utf16

/-!
# Classification of delivery errors

`classifyDeliveryError` and `safeError` of `worker/email-processor.ts`. A thrown value matters
through its class and its properties `code` and `responseCode`; everything else about it is dropped.

Errors of the database and of Redis form a subtype: they carry no SMTP code, so the processor cannot
mistake them for a reply of the SMTP server.
-/

set_option autoImplicit false

namespace EmailScheduler

open Foundation

/-- What `Reflect.get` returns, as far as the processor distinguishes it. -/
inductive PropertyValue where
  | string (value : String)
  | integer (value : Int)
  | other
deriving DecidableEq, Repr

/-- A thrown value: the processor's own `RejectedDeliveryError`, another object with its two
properties, or a value that is not an object. -/
inductive ThrownValue where
  | rejectedDelivery
  | object (code responseCode : PropertyValue)
  | primitive
deriving DecidableEq, Repr

inductive DeliveryClassification where
  | permanent
  | transient
  | unknown
deriving DecidableEq, Repr

/-- `smtpCode`. A `RejectedDeliveryError` has no `code`. -/
def smtpCode : ThrownValue → Option String
  | .object (.string code) _ => some code
  | _ => none

/-- `smtpResponseCode`. -/
def smtpResponseCode : ThrownValue → Option Int
  | .object _ (.integer code) => some code
  | _ => none

/-- The codes that mean the server refused the message for good. -/
def permanentCodes : List String := ["EAUTH", "EENVELOPE"]

/-- The codes that mean the server was not reached. -/
def transientCodes : List String := ["EDNS", "ECONNECTION"]

/-- `code` is present and one of `codes`. -/
def hasCode (codes : List String) (code : Option String) : Bool :=
  code.any fun c => codes.contains c

/-- `classifyDeliveryError`. -/
def classifyDeliveryError (error : ThrownValue) : DeliveryClassification :=
  match error with
  | .rejectedDelivery => .permanent
  | error =>
      let code := smtpCode error
      let responseCode := smtpResponseCode error
      if hasCode permanentCodes code || responseCode.any (fun c => decide (c ≥ 500)) then .permanent
      else if hasCode transientCodes code ||
          responseCode.any (fun c => decide (c ≥ 400) && decide (c < 500)) then .transient
      else .unknown

/-- What is stored about an error. -/
structure SafeError where
  code : String
  message : String
deriving DecidableEq, Repr

/-- The messages of `safeError`. -/
def DeliveryClassification.message : DeliveryClassification → String
  | .permanent => "SMTP permanently rejected the message"
  | .transient => "SMTP was temporarily unavailable before accepting the message"
  | .unknown => "SMTP delivery outcome is unknown"

/-- `safeError`. A code with a NUL, which PostgreSQL refuses, fails the transaction that stores
it. -/
def safeError (classification : DeliveryClassification) (error : ThrownValue) : SafeError :=
  ⟨.ofList (takeUnits 100 ((smtpCode error).getD "SMTP_DELIVERY_ERROR").toList),
    classification.message⟩

/-- An error of the database or of Redis: not an SMTP reply, and without the codes of one. -/
structure InfrastructureError where
  value : ThrownValue
  not_rejected : value ≠ .rejectedDelivery
  no_permanentCode : hasCode permanentCodes (smtpCode value) = false
  no_transientCode : hasCode transientCodes (smtpCode value) = false
  no_responseCode : smtpResponseCode value = none
deriving DecidableEq

/-- An infrastructure error says nothing about the delivery. -/
theorem InfrastructureError.classify_eq_unknown (e : InfrastructureError) :
    classifyDeliveryError e.value = .unknown := by
  have hreject := e.not_rejected
  have hpermanent := e.no_permanentCode
  have htransient := e.no_transientCode
  have hresponse := e.no_responseCode
  revert hreject hpermanent htransient hresponse
  cases e.value with
  | rejectedDelivery => intro hreject; exact absurd rfl hreject
  | object code responseCode =>
      intro _ hpermanent htransient hresponse
      simp [classifyDeliveryError, hpermanent, htransient, hresponse]
  | primitive => intros; rfl

/-- The stored code fits the column. -/
theorem safeError_code_length (classification : DeliveryClassification) (error : ThrownValue) :
    utf16Length (safeError classification error).code ≤ 100 :=
  utf16Length_takeUnits_le 100 _

/-- A violated unique constraint. -/
def uniqueConstraintError : InfrastructureError :=
  ⟨.object (.string "P2002") .other, by simp, by decide, by decide, rfl⟩

/-- An update of a record that does not exist. -/
def recordNotFoundError : InfrastructureError :=
  ⟨.object (.string "P2025") .other, by simp, by decide, by decide, rfl⟩

/-- `new Error("The claimed email could not be finalized")`. -/
def notFinalizedError : InfrastructureError :=
  ⟨.object .other .other, by simp, by decide, by decide, rfl⟩

end EmailScheduler
