import SlmodemSipBridge.Sip.Message

/-!
# Digest authentication

RFC 2617 as `sip.rs` implements it.  The md5 crate is a parameter: `md5Hex` is
the lowercase hexadecimal digest of a text's bytes.  The client nonce, a digest
of the clock, comes from the environment.
-/

namespace SlmodemSipBridge.Sip

open Rust

/-- A parsed challenge. -/
structure DigestChallenge where
  realm : Str
  nonce : Str
  opaqueParam : Option Str
  qop : Option Str
  deriving DecidableEq, Repr

/-- Why a challenge is rejected. -/
inductive DigestError where
  | missingRealm
  | missingNonce
  deriving DecidableEq, Repr

/-- Nonce count. -/
def nonceCount : Str := lit "00000001"

/-- Parse the value of a challenge header. -/
def parseDigestChallenge (header : Str) :
    Checked (Except DigestError DigestChallenge) := do
  match ← extractQuotedParam header (lit "realm") with
  | none => return .error .missingRealm
  | some realm =>
      match ← extractQuotedParam header (lit "nonce") with
      | none => return .error .missingNonce
      | some nonce =>
          let opaqueParam ← extractQuotedParam header (lit "opaque")
          let qop ← extractQuotedParam header (lit "qop")
          return .ok { realm, nonce, opaqueParam, qop }

/-- Result of a digest response computation. -/
structure DigestResponse where
  response : Str
  cnonce : Str
  deriving DecidableEq, Repr

section Md5

variable (md5Hex : Str → Str) (cnonce : Str)

/-- Compute the MD5 digest response. -/
def computeDigestResponse (username password realm nonce method uri : Str)
    (qop : Option Str) : DigestResponse :=
  let ha1 := md5Hex (username ++ lit ":" ++ realm ++ lit ":" ++ password)
  let ha2 := md5Hex (method ++ lit ":" ++ uri)
  let response :=
    if qop = some (lit "auth") then
      md5Hex (ha1 ++ lit ":" ++ nonce ++ lit ":" ++ nonceCount ++ lit ":" ++
        cnonce ++ lit ":auth:" ++ ha2)
    else md5Hex (ha1 ++ lit ":" ++ nonce ++ lit ":" ++ ha2)
  { response, cnonce }

/-- Build the full Authorization header value for a challenge. -/
def DigestChallenge.authHeaderValue (d : DigestChallenge)
    (username password method uri : Str) : Str :=
  let digestResp :=
    computeDigestResponse md5Hex cnonce username password d.realm d.nonce method
      uri d.qop
  let header :=
    lit "Digest username=\"" ++ username ++ lit "\", realm=\"" ++ d.realm ++
      lit "\", nonce=\"" ++ d.nonce ++ lit "\", uri=\"" ++ uri ++
      lit "\", response=\"" ++ digestResp.response ++ lit "\", algorithm=MD5"
  let header :=
    match d.opaqueParam with
    | some value => header ++ lit ", opaque=\"" ++ value ++ lit "\""
    | none => header
  if d.qop.isSome then
    header ++ lit ", qop=auth, nc=" ++ nonceCount ++ lit ", cnonce=\"" ++
      digestResp.cnonce ++ lit "\""
  else header

end Md5

theorem parseDigestChallenge_total (header : Str) :
    ∃ r, parseDigestChallenge header = .ok r := by
  obtain ⟨realm, hrealm⟩ := extractQuotedParam_total header (lit "realm")
  obtain ⟨nonce, hnonce⟩ := extractQuotedParam_total header (lit "nonce")
  obtain ⟨opaqueParam, hopaque⟩ := extractQuotedParam_total header (lit "opaque")
  obtain ⟨qop, hqop⟩ := extractQuotedParam_total header (lit "qop")
  simp only [parseDigestChallenge, hrealm, hnonce, hopaque, hqop, bind,
    Except.bind]
  cases realm with
  | none => exact ⟨_, rfl⟩
  | some realm =>
      cases nonce with
      | none => exact ⟨_, rfl⟩
      | some nonce => exact ⟨_, rfl⟩

end SlmodemSipBridge.Sip
