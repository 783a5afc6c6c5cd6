import WalletScan.Digest.Sha256
import WalletScan.Http.Response
import WalletScan.Owner
import WalletScan.Settings.Basic
import WalletScan.Time.Moment
import WalletScan.Wire.Records

/-!
# Deliveries to a webhook

The data of an owner is posted as JSON. The signature covers the second at which the request is made
and the body, so that the receiver can tell both.

* `Delivery.body` — the text that is posted and signed;
* `Delivery.request` — the body with its headers;
* `verdict` — whether the receiver took it. A fault of the sender is a rejection, any other failure
  one of the transport.

Specification: section 11 (`WebhookNotifySink`).
-/

set_option autoImplicit false

namespace WalletScan.Webhook

open Json (Value)

/-- The data of an owner that is to be delivered. -/
structure Delivery where
  owner : OwnerKey
  data : ExtractedData
deriving DecidableEq, Repr

/-- A request to the webhook. -/
structure Request where
  contentType : String
  userAgent : String
  signature : String
  timestamp : String
  body : String
deriving DecidableEq, Repr

/-- The name under which the scanner introduces itself. -/
def userAgent : String := "chainscan/0.1.0"

/-- What kind of event a delivery is. -/
def eventType : String := "data_extracted"

namespace Delivery

/-- The delivery as a value. -/
def value (now : Moment) (d : Delivery) : Value := .object
  [ ("event_type", .text eventType),
    ("owner", .text d.owner.render),
    ("created_at", .text now.render),
    ("data", Wire.toValue d.data) ]

/-- The text that is posted. -/
def body (now : Moment) (d : Delivery) : String := (d.value now).render

end Delivery

/-- The signature of a body at a second: both, and the keyed digest of the two together. -/
def signature (secret : String) (second : UInt64) (body : String) : String :=
  let second := toString second.toNat
  "t=" ++ second ++ ",v1=" ++ Hmac.hexOfText secret (second ++ "." ++ body)

/-- The request that carries a delivery. -/
def Delivery.request (secret : String) (now : Moment) (d : Delivery) : Request :=
  let body := d.body now
  { contentType := "application/json"
    userAgent := userAgent
    signature := signature secret now.seconds body
    timestamp := toString now.seconds.toNat
    body := body }

/-- The error of a webhook whose location cannot be read. -/
def unaddressed : NotifyError := .transport "Network error: builder error"

/-- How many characters of a refusal are kept. -/
def refusalLimit : Nat := 200

/-- Whether a delivery was taken. -/
def verdict (reply : Http.Reply) : Except NotifyError Unit :=
  match reply with
  | .error cause => .error (.transport ("Network error: " ++ cause.message))
  | .ok r =>
    if r.isSuccess then .ok ()
    else if r.isClientError then
      .error (.rejected ("Client error " ++ r.statusText ++ ": "
        ++ String.ofList (r.text.toList.take refusalLimit)))
    else .error (.transport ("Server error " ++ r.statusText))

end WalletScan.Webhook
