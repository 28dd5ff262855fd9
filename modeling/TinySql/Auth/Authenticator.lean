import TinySql.Common.Bytes

/-!
# `Authenticator`

The check of a `mysql_native_password` response. SHA-1 is a parameter: any function to 20 bytes.
-/

namespace TinySql.Authenticator

variable (sha1 : Bytes → Vector UInt8 20)

def doubleSha1 (password : Bytes) : Bytes := (sha1 (sha1 password).toList).toList

/-- The stored hash of a user, empty for an unknown one. -/
def getPasswordHash (username : Bytes) : Bytes :=
  if username = ascii "root" ∨ username = ascii "tiny" then doubleSha1 sha1 []
  else if username = ascii "test" then doubleSha1 sha1 (ascii "test")
  else if username = ascii "admin" then doubleSha1 sha1 (ascii "admin123")
  else []

def xorBytes (a b : Bytes) : Bytes := List.zipWith (· ^^^ ·) a b

def authenticate (username authResponse : Bytes) (authPluginData : Vector UInt8 20) : Bool :=
  let passwordHash := getPasswordHash sha1 username
  if passwordHash = [] then false
  else if authResponse = [] then passwordHash = doubleSha1 sha1 []
  else if authResponse.length ≠ 20 then false
  else
    let hash1 := (sha1 (authPluginData.toList ++ passwordHash)).toList
    let sha1Password := xorBytes authResponse hash1
    (sha1 sha1Password).toList = passwordHash

/-- The response that a client makes of its password. -/
def computeAuthResponse (password : Bytes) (authPluginData : Vector UInt8 20) : Bytes :=
  if password = [] then []
  else
    let sha1Pass := (sha1 password).toList
    let sha1Sha1Pass := (sha1 sha1Pass).toList
    let hash := (sha1 (authPluginData.toList ++ sha1Sha1Pass)).toList
    xorBytes sha1Pass hash

end TinySql.Authenticator
