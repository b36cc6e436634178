/-
The messages of the WireGuard protocol, and the primitives they are made with.

The reserved bytes behind the type are read as zero and written last, outside what the
checks cover. The primitives are functions given from outside, and so are the values
drawn at random.
-/

import Sail.Lib.Bytes

namespace Sail.Protocol.Wireguard

open Bytes

structure Crypto where
  hash : List Bytes → Bytes
  mac : Bytes → List Bytes → Bytes
  kdf1 : Bytes → Bytes → Bytes
  kdf2 : Bytes → Bytes → Bytes × Bytes
  kdf3 : Bytes → Bytes → Bytes × Bytes × Bytes
  publicKey : Bytes → Bytes
  dh : Bytes → Bytes → Option Bytes
  aeadSeal (key : Bytes) (counter : Nat) (plaintext aad : Bytes) : Bytes
  aeadOpen (key : Bytes) (counter : Nat) (ciphertext aad : Bytes) : Option Bytes
  xaeadSeal (key nonce plaintext aad : Bytes) : Bytes
  xaeadOpen (key nonce ciphertext aad : Bytes) : Option Bytes
  /-- The index that an allocation ends with: random ones are drawn until one is
  neither zero nor in use. -/
  index : Nat → Nat
  privateKey : Nat → Bytes
  jitter : Nat → Nat
  cookieSecret : Nat → Bytes
  cookieNonce : Nat → Bytes

def keyLen : Nat := 32

def macLen : Nat := 16

def tagLen : Nat := 16

def zeroKey : Bytes := List.replicate keyLen 0

def typeInitiation : UInt8 := 1

def typeResponse : UInt8 := 2

def typeCookieReply : UInt8 := 3

def typeData : UInt8 := 4

def initiationLen : Nat := 148

def responseLen : Nat := 92

def cookieReplyLen : Nat := 64

def dataHeaderLen : Nat := 16

def dataMinLen : Nat := dataHeaderLen + tagLen

def paddingMultiple : Nat := 16

def u32LeAt (bytes : Bytes) (index : Nat) : Nat :=
  littleEndian (bytes.slice index (index + 4))

def u64LeAt (bytes : Bytes) (index : Nat) : Nat :=
  littleEndian (bytes.slice index (index + 8))

def u32LeBytes (value : Nat) : Bytes :=
  (u32Bytes value).reverse

def u64LeBytes (value : Nat) : Bytes :=
  (u64Bytes value).reverse

def header (type : UInt8) (reserved : Bytes) : Bytes :=
  type :: reserved

def noReserved : Bytes := [0, 0, 0]

structure Initiation where
  sender : Nat
  ephemeral : Bytes
  encryptedStatic : Bytes
  encryptedTimestamp : Bytes
  mac1 : Bytes
  mac2 : Bytes

def Initiation.parse (buf : Bytes) : Option Initiation :=
  if buf.length ≠ initiationLen ∨ byteAt buf 0 ≠ typeInitiation then none
  else
    some
      { sender := u32LeAt buf 4
        ephemeral := buf.slice 8 40
        encryptedStatic := buf.slice 40 88
        encryptedTimestamp := buf.slice 88 116
        mac1 := buf.slice 116 132
        mac2 := buf.slice 132 148 }

def Initiation.toBytes (message : Initiation) : Bytes :=
  header typeInitiation noReserved ++ u32LeBytes message.sender ++ message.ephemeral ++
    message.encryptedStatic ++ message.encryptedTimestamp ++ message.mac1 ++ message.mac2

structure Response where
  sender : Nat
  receiver : Nat
  ephemeral : Bytes
  encryptedNothing : Bytes
  mac1 : Bytes
  mac2 : Bytes

def Response.parse (buf : Bytes) : Option Response :=
  if buf.length ≠ responseLen ∨ byteAt buf 0 ≠ typeResponse then none
  else
    some
      { sender := u32LeAt buf 4
        receiver := u32LeAt buf 8
        ephemeral := buf.slice 12 44
        encryptedNothing := buf.slice 44 60
        mac1 := buf.slice 60 76
        mac2 := buf.slice 76 92 }

def Response.toBytes (message : Response) : Bytes :=
  header typeResponse noReserved ++ u32LeBytes message.sender ++ u32LeBytes message.receiver ++
    message.ephemeral ++ message.encryptedNothing ++ message.mac1 ++ message.mac2

structure CookieReply where
  receiver : Nat
  nonce : Bytes
  encryptedCookie : Bytes

def CookieReply.parse (buf : Bytes) : Option CookieReply :=
  if buf.length ≠ cookieReplyLen ∨ byteAt buf 0 ≠ typeCookieReply then none
  else
    some
      { receiver := u32LeAt buf 4
        nonce := buf.slice 8 32
        encryptedCookie := buf.slice 32 64 }

def CookieReply.toBytes (message : CookieReply) : Bytes :=
  header typeCookieReply noReserved ++ u32LeBytes message.receiver ++ message.nonce ++
    message.encryptedCookie

structure DataHeader where
  receiver : Nat
  counter : Nat

def DataHeader.parse (buf : Bytes) : Option DataHeader :=
  if buf.length < dataMinLen ∨ byteAt buf 0 ≠ typeData then none
  else some { receiver := u32LeAt buf 4, counter := u64LeAt buf 8 }

def DataHeader.toBytes (message : DataHeader) (reserved : Bytes) : Bytes :=
  header typeData reserved ++ u32LeBytes message.receiver ++ u64LeBytes message.counter

def macOffsets (len : Nat) : Nat × Nat :=
  (len - 2 * macLen, len - macLen)

def nextMultipleOf (value multiple : Nat) : Nat :=
  (value + multiple - 1) / multiple * multiple

/-- How many zero bytes pad a plaintext: to a multiple of sixteen, but not beyond
the MTU. -/
def padding (len mtu : Nat) : Nat :=
  if mtu = 0 then nextMultipleOf len paddingMultiple - len
  else
    let lastUnit := if mtu < len then len % mtu else len
    min mtu (nextMultipleOf lastUnit paddingMultiple) - lastUnit

/-! ### Timestamps -/

def tai64nLen : Nat := 12

def tai64nBase : Nat := 4611686018427387914

/-- The label of a time in nanoseconds; the last bits of the fraction are
dropped. -/
def tai64n (time : Nat) : Bytes :=
  let nanos := time % 1000000000
  u64Bytes (tai64nBase + time / 1000000000) ++ u32Bytes (nanos - nanos % 16777216)

end Sail.Protocol.Wireguard
