import GameDemoLearn.Util.Util

/-!
The enumerations of `HttpCommon.h` and the texts of `HttpUtil.h` and
`HttpUtil.cpp`.
-/

namespace GameDemoLearn.Net.Http

inductive StatusCode
  | unknown
  | switchingProtocols
  | ok
  | created
  | accepted
  | noContent
  | partialContent
  | multipleChoices
  | movedPermanently
  | movedTemporarily
  | notModified
  | temporaryRedirect
  | badRequest
  | unauthorized
  | forbidden
  | notFound
  | conflict
  | internalServerError
  | notImplemented
  | badGateway
  | serviceUnavailable
  | max
  deriving DecidableEq

/-- `Util::ToUnderlying`. -/
def StatusCode.toUnderlying : StatusCode → Nat
  | .unknown => 0
  | .switchingProtocols => 101
  | .ok => 200
  | .created => 201
  | .accepted => 202
  | .noContent => 204
  | .partialContent => 206
  | .multipleChoices => 300
  | .movedPermanently => 301
  | .movedTemporarily => 302
  | .notModified => 304
  | .temporaryRedirect => 307
  | .badRequest => 400
  | .unauthorized => 401
  | .forbidden => 403
  | .notFound => 404
  | .conflict => 409
  | .internalServerError => 500
  | .notImplemented => 501
  | .badGateway => 502
  | .serviceUnavailable => 503
  | .max => 504

/-- `magic_enum::enum_name`. -/
def StatusCode.enumName : StatusCode → Bytes
  | .unknown => Bytes.ofString "Unknown"
  | .switchingProtocols => Bytes.ofString "SwitchingProtocols"
  | .ok => Bytes.ofString "Ok"
  | .created => Bytes.ofString "Created"
  | .accepted => Bytes.ofString "Accepted"
  | .noContent => Bytes.ofString "NoContent"
  | .partialContent => Bytes.ofString "PartialContent"
  | .multipleChoices => Bytes.ofString "MultipleChoices"
  | .movedPermanently => Bytes.ofString "MovedPermanently"
  | .movedTemporarily => Bytes.ofString "MovedTemporarily"
  | .notModified => Bytes.ofString "NotModified"
  | .temporaryRedirect => Bytes.ofString "TemporaryRedirect"
  | .badRequest => Bytes.ofString "BadRequest"
  | .unauthorized => Bytes.ofString "Unauthorized"
  | .forbidden => Bytes.ofString "Forbidden"
  | .notFound => Bytes.ofString "NotFound"
  | .conflict => Bytes.ofString "Conflict"
  | .internalServerError => Bytes.ofString "InternalServerError"
  | .notImplemented => Bytes.ofString "NotImplemented"
  | .badGateway => Bytes.ofString "BadGateway"
  | .serviceUnavailable => Bytes.ofString "ServiceUnavailable"
  | .max => Bytes.ofString "Max"

inductive HttpMethod
  | unknown
  | delete
  | get
  | head
  | post
  | put
  | patch
  | connect
  | options
  deriving DecidableEq

def httpMethodToString : HttpMethod → Bytes
  | .unknown => Bytes.ofString "UNKNOWN"
  | .delete => Bytes.ofString "DELETE"
  | .get => Bytes.ofString "GET"
  | .head => Bytes.ofString "HEAD"
  | .post => Bytes.ofString "POST"
  | .put => Bytes.ofString "PUT"
  | .patch => Bytes.ofString "PATCH"
  | .connect => Bytes.ofString "CONNECT"
  | .options => Bytes.ofString "OPTIONS"

/-- `mtd[0]` and `mtd.remove_prefix(1)`; there has to be a character. -/
def takeChar : Bytes → Option (UInt8 × Bytes)
  | [] => none
  | chr :: mtd => some (chr, mtd)

/-- The method of a branch that has one text left to compare. -/
def methodIf (mtd text : Bytes) (m : HttpMethod) : HttpMethod :=
  if mtd = text then m else .unknown

/-- `StringToHttpMethod`; `none` where a character is taken that is not there. -/
def stringToHttpMethod (mtd : Bytes) : Option HttpMethod :=
  if mtd.length < 3 then
    some .unknown
  else do
    let (chr, mtd) ← takeChar mtd
    if chr = 67 then
      some (methodIf mtd (Bytes.ofString "ONNECT") .connect)
    else if chr = 68 then
      some (methodIf mtd (Bytes.ofString "ELETE") .delete)
    else if chr = 71 then
      some (methodIf mtd (Bytes.ofString "ET") .get)
    else if chr = 72 then
      some (methodIf mtd (Bytes.ofString "EAD") .head)
    else if chr = 79 then
      some (methodIf mtd (Bytes.ofString "PTIONS") .options)
    else if chr = 80 then do
      let (chr, mtd) ← takeChar mtd
      if chr = 65 then
        some (methodIf mtd (Bytes.ofString "TCH") .patch)
      else if chr = 79 then
        some (methodIf mtd (Bytes.ofString "ST") .post)
      else if chr = 85 then
        some (methodIf mtd (Bytes.ofString "T") .put)
      else
        some .unknown
    else
      some .unknown

section Methods

variable {mtd text : Bytes} {m m' : HttpMethod}

theorem eq_of_methodIf (hmethod : some (methodIf mtd text m') = some m) (hm : m ≠ .unknown) :
    mtd = text ∧ m' = m := by
  rw [Option.some.injEq, methodIf] at hmethod
  split at hmethod
  · next htext => exact ⟨htext, hmethod⟩
  · exact absurd hmethod.symm hm

theorem exists_cons_cons (hsize : ¬ mtd.length < 3) : ∃ c d rest, mtd = c :: d :: rest := by
  cases mtd with
  | nil => exact absurd (Nat.zero_lt_succ 2) hsize
  | cons c mtd =>
      cases mtd with
      | nil => exact absurd (Nat.lt_add_of_pos_right (Nat.zero_lt_succ 1)) hsize
      | cons d rest => exact ⟨c, d, rest, rfl⟩

/-- The size is checked before the first two characters are taken. -/
theorem isSome_stringToHttpMethod (mtd : Bytes) : (stringToHttpMethod mtd).isSome = true := by
  unfold stringToHttpMethod
  split
  · rfl
  · next hsize =>
      obtain ⟨c, d, rest, rfl⟩ := exists_cons_cons hsize
      simp only [takeChar, Option.bind_eq_bind, Option.bind_some, apply_ite Option.isSome,
        Option.isSome_some, ite_self]

/-- A branch that returns a method has compared all of its text. -/
theorem eq_httpMethodToString (hmethod : stringToHttpMethod mtd = some m) (hm : m ≠ .unknown) :
    mtd = httpMethodToString m := by
  unfold stringToHttpMethod at hmethod
  split at hmethod
  · exact absurd (Option.some.inj hmethod).symm hm
  · next hsize =>
      obtain ⟨c, d, rest, rfl⟩ := exists_cons_cons hsize
      simp only [takeChar, Option.bind_eq_bind, Option.bind_some] at hmethod
      split_ifs at hmethod with hC hD hG hH hO hP hA hO' hU
      case neg => exact absurd (Option.some.inj hmethod).symm hm
      case neg => exact absurd (Option.some.inj hmethod).symm hm
      all_goals
        obtain ⟨htext, rfl⟩ := eq_of_methodIf hmethod hm
        subst_vars
      -- Behind a `P` the rest of the text is known, elsewhere all of it but its first character.
      all_goals first | rfl | exact congrArg (_ :: ·) htext

theorem stringToHttpMethod_httpMethodToString (hm : m ≠ .unknown) :
    stringToHttpMethod (httpMethodToString m) = some m := by
  cases m with
  | unknown => exact absurd rfl hm
  | _ => decide

/-- The method of a text is the one that is written so, and no character is taken from a
text without it. -/
theorem stringToHttpMethod_inverse (mtd : Bytes) :
    ∃ m', stringToHttpMethod mtd = some m' ∧
      ∀ m, m ≠ .unknown → (m' = m ↔ mtd = httpMethodToString m) := by
  obtain ⟨m', hmethod⟩ := Option.isSome_iff_exists.mp (isSome_stringToHttpMethod mtd)
  refine ⟨m', hmethod, fun m hm => ⟨?_, ?_⟩⟩
  · rintro rfl
    exact eq_httpMethodToString hmethod hm
  · rintro rfl
    rw [stringToHttpMethod_httpMethodToString hm] at hmethod
    exact (Option.some.inj hmethod).symm

end Methods

inductive ContentType
  | string
  | html
  | json
  deriving DecidableEq

def CRLF : Bytes := [13, 10]

def statusToResponseHead (status : StatusCode) : Bytes :=
  Bytes.ofString "HTTP/1.1 " ++ Util.toChars status.toUnderlying ++ [32] ++ status.enumName ++ CRLF

def contentTypeString (type : ContentType) (charset : Bytes) : Bytes :=
  match type with
  | .string => Bytes.ofString "Content-Type: text/plain; charset=" ++ charset ++ CRLF
  | .html => Bytes.ofString "Content-Type: text/html; charset=" ++ charset ++ CRLF
  | .json => Bytes.ofString "Content-Type: application/json; charset=" ++ charset ++ CRLF

def statusToResponseContent (statusCode : StatusCode) : Bytes :=
  Bytes.ofString "\n                <html>\n                <head><title>" ++ statusCode.enumName
    ++ Bytes.ofString "</title></head>\n                <body><h1>"
    ++ Util.toChars statusCode.toUnderlying ++ [32] ++ statusCode.enumName
    ++ Bytes.ofString "</h1></body>\n                </html>"

end GameDemoLearn.Net.Http
