/-
The checks on handshake messages, and the limits under load.

The first check binds a message to our key, the second one, asked for under load,
to a cookie of the sender's address. Cookies are made from a secret that changes
every two minutes.
-/

import Sail.Lib.KeyedMap
import Sail.Lib.MachineWord
import Sail.Netstack.Transport
import Sail.Protocol.Wireguard.Noise

namespace Sail.Protocol.Wireguard

open Netstack

def labelMac1 : Bytes :=
  "mac1----".toUTF8.toList

def labelCookie : Bytes :=
  "cookie--".toUTF8.toList

def cookieSecretMaxAge : Nat := seconds 120

def cookieSecretLatency : Nat := seconds 5

inductive MacState where
  | invalidMac
  | validMacButNoCookie
  | validMacWithCookieButRateLimited
  | validMacWithCookie
deriving DecidableEq

def addressBytes (src : SocketAddr) : Bytes :=
  src.ip.octets ++ Bytes.u16Bytes src.port

/-! ### The rate limiter -/

def packetCost : Nat := 1000000000 / 20

def tokenMax : Nat := packetCost * 5

def limiterIdle : Nat := seconds 1

def limiterMaxEntries : Nat := 8192

structure RateLimiter where
  buckets : KeyedMap IpAddr (Instant × Nat)
  lastGc : Option Instant

namespace RateLimiter

def new : RateLimiter :=
  { buckets := ∅, lastGc := none }

def key : IpAddr → IpAddr
  | .v4 address => .v4 address
  | .v6 address => .v6 (BitVec.ofNat 128 (address.toNat / 2 ^ 64 * 2 ^ 64))

def gc (limiter : RateLimiter) (now : Instant) : RateLimiter :=
  if limiter.lastGc.any (fun last => now - last < limiterIdle) then limiter
  else
    { lastGc := some now
      buckets := (limiter.buckets.toList.filter (fun entry => limiterIdle ≤ now - entry.2.1)).foldl
        (fun map entry => map.erase entry.1) limiter.buckets }

def allow (limiter : RateLimiter) (ip : IpAddr) (now : Instant) : Bool × RateLimiter :=
  let limiter := limiter.gc now
  match limiter.buckets.lookup (key ip) with
  | some (last, tokens) =>
    let tokens := min (tokens + (now - last)) tokenMax
    if packetCost ≤ tokens then
      (true, { limiter with
        buckets := limiter.buckets.insert (key ip) (now, tokens - packetCost) })
    else (false, { limiter with buckets := limiter.buckets.insert (key ip) (now, tokens) })
  | none =>
    if limiterMaxEntries ≤ limiter.buckets.toList.length then (false, limiter)
    else
      (true, { limiter with
        buckets := limiter.buckets.insert (key ip) (now, tokenMax - packetCost) })

end RateLimiter

/-! ### The receiver's side -/

structure CookieChecker where
  mac1Key : Bytes
  cookieKey : Bytes
  secret : Bytes
  secretBirth : Option Instant
  draws : Nat
deriving DecidableEq

namespace CookieChecker

def new (crypto : Crypto) (localPublic : Bytes) : CookieChecker :=
  { mac1Key := crypto.hash [labelMac1, localPublic]
    cookieKey := crypto.hash [labelCookie, localPublic]
    secret := zeroKey
    secretBirth := none
    draws := 0 }

def refresh (crypto : Crypto) (checker : CookieChecker) (now : Instant) : CookieChecker :=
  if checker.secretBirth.all (fun birth => cookieSecretMaxAge ≤ now - birth) then
    { checker with
      secret := crypto.cookieSecret checker.draws
      secretBirth := some now
      draws := checker.draws + 1 }
  else checker

def cookieOf (crypto : Crypto) (checker : CookieChecker) (src : SocketAddr) : Bytes :=
  crypto.mac checker.secret [addressBytes src]

def mac1Valid (crypto : Crypto) (checker : CookieChecker) (message : Bytes) : Bool :=
  let (m1, m2) := macOffsets message.length
  crypto.mac checker.mac1Key [message.take m1] = message.slice m1 m2

/-- Check a handshake message. The rate limiter is asked only for one with a valid
cookie. -/
def validate (crypto : Crypto) (checker : CookieChecker) (limiter : RateLimiter) (message : Bytes)
    (src : SocketAddr) (checkCookie : Bool) (now : Instant) :
    MacState × CookieChecker × RateLimiter :=
  if !checker.mac1Valid crypto message then (.invalidMac, checker, limiter)
  else if !checkCookie then (.validMacButNoCookie, checker, limiter)
  else
    let checker := checker.refresh crypto now
    let (_, m2) := macOffsets message.length
    if crypto.mac (checker.cookieOf crypto src) [message.take m2] ≠ message.drop m2 then
      (.validMacButNoCookie, checker, limiter)
    else
      let (allowed, limiter) := limiter.allow src.ip now
      if !allowed then (.validMacWithCookieButRateLimited, checker, limiter)
      else (.validMacWithCookie, checker, limiter)

def createReply (crypto : Crypto) (checker : CookieChecker) (message : Bytes) (sender : Nat)
    (src : SocketAddr) (now : Instant) : CookieReply × CookieChecker :=
  let (m1, m2) := macOffsets message.length
  let checker := checker.refresh crypto now
  let nonce := crypto.cookieNonce checker.draws
  ({ receiver := sender
     nonce
     encryptedCookie := crypto.xaeadSeal checker.cookieKey nonce (checker.cookieOf crypto src)
       (message.slice m1 m2) },
    { checker with draws := checker.draws + 1 })

end CookieChecker

/-! ### The sender's side -/

structure CookieGenerator where
  mac1Key : Bytes
  cookieKey : Bytes
  lastMac1 : Option Bytes
  cookie : Option (Bytes × Instant)
deriving DecidableEq

namespace CookieGenerator

def new (crypto : Crypto) (peerPublic : Bytes) : CookieGenerator :=
  { mac1Key := crypto.hash [labelMac1, peerPublic]
    cookieKey := crypto.hash [labelCookie, peerPublic]
    lastMac1 := none
    cookie := none }

def addMacs (crypto : Crypto) (generator : CookieGenerator) (message : Bytes) (now : Instant) :
    Bytes × CookieGenerator :=
  let (m1, m2) := macOffsets message.length
  let mac1 := crypto.mac generator.mac1Key [message.take m1]
  let checked := message.take m1 ++ mac1
  let mac2 :=
    match generator.cookie.filter
        (fun cookie => now - cookie.2 < cookieSecretMaxAge - cookieSecretLatency) with
    | some (cookie, _) => crypto.mac cookie [checked]
    | none => List.replicate (message.length - m2) 0
  (checked ++ mac2, { generator with lastMac1 := some mac1 })

def consumeReply (crypto : Crypto) (generator : CookieGenerator) (reply : CookieReply)
    (now : Instant) : Option CookieGenerator :=
  match generator.lastMac1 with
  | none => none
  | some mac1 =>
    match crypto.xaeadOpen generator.cookieKey reply.nonce reply.encryptedCookie mac1 with
    | none => none
    | some cookie => some { generator with cookie := some (cookie, now), lastMac1 := none }

end CookieGenerator

end Sail.Protocol.Wireguard
