/-
Module: Hfc.Core.Hpack.StaticTable
Layer: Core
Purpose: The static table of header fields, and the tokens of the names that have one.
Imports: Hfc.Library.ByteText
Main exports: StaticEntry, staticTable, staticTableLength, TokenCase, tokenCases, lookupToken
-/
import Hfc.Library.ByteText

namespace Hfc.Hpack

open ByteText

/-- `nghttp2_hd_static_entry`: a field of the static table with the token and the hash of its name.
-/
structure StaticEntry where
  name : Bytes
  value : Bytes
  token : Int
  hash : Nat

/-- `MAKE_STATIC_ENT`. -/
def makeStaticEnt (name value : String) (token : Int) (hash : Nat) : StaticEntry where
  name := ascii name
  value := ascii value
  token := token
  hash := hash

/-- `NGHTTP2_STATIC_TABLE_LENGTH`: where the indices of the dynamic table begin. -/
def staticTableLength : Nat := 61

def staticTable : List StaticEntry := [
  makeStaticEnt ":authority" "" 0 3153725150,
  makeStaticEnt ":method" "GET" 1 695666056,
  makeStaticEnt ":method" "POST" 1 695666056,
  makeStaticEnt ":path" "/" 3 3292848686,
  makeStaticEnt ":path" "/index.html" 3 3292848686,
  makeStaticEnt ":scheme" "http" 5 2510477674,
  makeStaticEnt ":scheme" "https" 5 2510477674,
  makeStaticEnt ":status" "200" 7 4000288983,
  makeStaticEnt ":status" "204" 7 4000288983,
  makeStaticEnt ":status" "206" 7 4000288983,
  makeStaticEnt ":status" "304" 7 4000288983,
  makeStaticEnt ":status" "400" 7 4000288983,
  makeStaticEnt ":status" "404" 7 4000288983,
  makeStaticEnt ":status" "500" 7 4000288983,
  makeStaticEnt "accept-charset" "" 14 3664010344,
  makeStaticEnt "accept-encoding" "gzip, deflate" 15 3379649177,
  makeStaticEnt "accept-language" "" 16 1979086614,
  makeStaticEnt "accept-ranges" "" 17 1713753958,
  makeStaticEnt "accept" "" 18 136609321,
  makeStaticEnt "access-control-allow-origin" "" 19 2710797292,
  makeStaticEnt "age" "" 20 742476188,
  makeStaticEnt "allow" "" 21 2930878514,
  makeStaticEnt "authorization" "" 22 2436257726,
  makeStaticEnt "cache-control" "" 23 1355326669,
  makeStaticEnt "content-disposition" "" 24 3889184348,
  makeStaticEnt "content-encoding" "" 25 65203592,
  makeStaticEnt "content-language" "" 26 24973587,
  makeStaticEnt "content-length" "" 27 1308181789,
  makeStaticEnt "content-location" "" 28 2302364718,
  makeStaticEnt "content-range" "" 29 3555523146,
  makeStaticEnt "content-type" "" 30 4244048277,
  makeStaticEnt "cookie" "" 31 2007449791,
  makeStaticEnt "date" "" 32 3564297305,
  makeStaticEnt "etag" "" 33 113792960,
  makeStaticEnt "expect" "" 34 2530896728,
  makeStaticEnt "expires" "" 35 1049544579,
  makeStaticEnt "from" "" 36 2513272949,
  makeStaticEnt "host" "" 37 2952701295,
  makeStaticEnt "if-match" "" 38 3597694698,
  makeStaticEnt "if-modified-since" "" 39 2213050793,
  makeStaticEnt "if-none-match" "" 40 2536202615,
  makeStaticEnt "if-range" "" 41 2340978238,
  makeStaticEnt "if-unmodified-since" "" 42 3794814858,
  makeStaticEnt "last-modified" "" 43 3226950251,
  makeStaticEnt "link" "" 44 232457833,
  makeStaticEnt "location" "" 45 200649126,
  makeStaticEnt "max-forwards" "" 46 1826162134,
  makeStaticEnt "proxy-authenticate" "" 47 2709445359,
  makeStaticEnt "proxy-authorization" "" 48 2686392507,
  makeStaticEnt "range" "" 49 4208725202,
  makeStaticEnt "referer" "" 50 3969579366,
  makeStaticEnt "refresh" "" 51 3572655668,
  makeStaticEnt "retry-after" "" 52 3336180598,
  makeStaticEnt "server" "" 53 1085029842,
  makeStaticEnt "set-cookie" "" 54 1848371000,
  makeStaticEnt "strict-transport-security" "" 55 4138147361,
  makeStaticEnt "transfer-encoding" "" 56 3719590988,
  makeStaticEnt "user-agent" "" 57 606444526,
  makeStaticEnt "vary" "" 58 1085005381,
  makeStaticEnt "via" "" 59 1762798611,
  makeStaticEnt "www-authenticate" "" 60 779865858]

/-! ### Tokens

`lookup_token`: the cases of the nested `switch` on the length and the last byte of a name, as a
table. -/

def tokenPath : Int := 3
def tokenAge : Int := 20
def tokenAuthorization : Int := 22
def tokenContentLength : Int := 27
def tokenCookie : Int := 31
def tokenEtag : Int := 33
def tokenIfModifiedSince : Int := 39
def tokenIfNoneMatch : Int := 40
def tokenLocation : Int := 45
def tokenSetCookie : Int := 54
def tokenWwwAuthenticate : Int := 60

/-- A branch of `lookup_token`: the length of the name, its last character, and the text in front of
it, which is compared as a whole. -/
structure TokenCase where
  namelen : Nat
  last : Char
  front : String
  token : Int

/-- The branches of `lookup_token`, in their order. -/
def tokenCases : List TokenCase := [
  ⟨2, 'e', "t", 61⟩,
  ⟨3, 'a', "vi", 59⟩,
  ⟨3, 'e', "ag", 20⟩,
  ⟨4, 'e', "dat", 32⟩,
  ⟨4, 'g', "eta", 33⟩,
  ⟨4, 'k', "lin", 44⟩,
  ⟨4, 'm', "fro", 36⟩,
  ⟨4, 't', "hos", 37⟩,
  ⟨4, 'y', "var", 58⟩,
  ⟨5, 'e', "rang", 49⟩,
  ⟨5, 'h', ":pat", 3⟩,
  ⟨5, 'w', "allo", 21⟩,
  ⟨6, 'e', "cooki", 31⟩,
  ⟨6, 'r', "serve", 53⟩,
  ⟨6, 't', "accep", 18⟩,
  ⟨6, 't', "expec", 34⟩,
  ⟨7, 'd', ":metho", 1⟩,
  ⟨7, 'e', ":schem", 5⟩,
  ⟨7, 'e', "upgrad", 65⟩,
  ⟨7, 'h', "refres", 51⟩,
  ⟨7, 'r', "refere", 50⟩,
  ⟨7, 's', ":statu", 7⟩,
  ⟨7, 's', "expire", 35⟩,
  ⟨8, 'e', "if-rang", 41⟩,
  ⟨8, 'h', "if-matc", 38⟩,
  ⟨8, 'n', "locatio", 45⟩,
  ⟨8, 'y', "priorit", 67⟩,
  ⟨9, 'l', ":protoco", 66⟩,
  ⟨10, 'e', "keep-aliv", 63⟩,
  ⟨10, 'e', "set-cooki", 54⟩,
  ⟨10, 'n', "connectio", 62⟩,
  ⟨10, 't', "user-agen", 57⟩,
  ⟨10, 'y', ":authorit", 0⟩,
  ⟨11, 'r', "retry-afte", 52⟩,
  ⟨12, 'e', "content-typ", 30⟩,
  ⟨12, 's', "max-forward", 46⟩,
  ⟨13, 'd', "last-modifie", 43⟩,
  ⟨13, 'e', "content-rang", 29⟩,
  ⟨13, 'h', "if-none-matc", 40⟩,
  ⟨13, 'l', "cache-contro", 23⟩,
  ⟨13, 'n', "authorizatio", 22⟩,
  ⟨13, 's', "accept-range", 17⟩,
  ⟨14, 'h', "content-lengt", 27⟩,
  ⟨14, 't', "accept-charse", 14⟩,
  ⟨15, 'e', "accept-languag", 16⟩,
  ⟨15, 'g', "accept-encodin", 15⟩,
  ⟨16, 'e', "content-languag", 26⟩,
  ⟨16, 'e', "www-authenticat", 60⟩,
  ⟨16, 'g', "content-encodin", 25⟩,
  ⟨16, 'n', "content-locatio", 28⟩,
  ⟨16, 'n', "proxy-connectio", 64⟩,
  ⟨17, 'e', "if-modified-sinc", 39⟩,
  ⟨17, 'g', "transfer-encodin", 56⟩,
  ⟨18, 'e', "proxy-authenticat", 47⟩,
  ⟨19, 'e', "if-unmodified-sinc", 42⟩,
  ⟨19, 'n', "content-dispositio", 24⟩,
  ⟨19, 'n', "proxy-authorizatio", 48⟩,
  ⟨25, 'y', "strict-transport-securit", 55⟩,
  ⟨27, 'n', "access-control-allow-origi", 19⟩]

/-- Whether a name takes a branch. -/
def TokenCase.takes (c : TokenCase) (name : Bytes) : Bool :=
  name.length = c.namelen && name.getLast? = some (UInt8.ofNat c.last.toNat) &&
    name.dropLast = ascii c.front

/-- `lookup_token`: the token of the branch that takes the name, and -1 where none does. -/
def lookupToken (name : Bytes) : Int :=
  match tokenCases.find? fun c => c.takes name with
  | some c => c.token
  | none => -1

end Hfc.Hpack
