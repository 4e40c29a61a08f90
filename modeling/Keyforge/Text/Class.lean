/-!
# Classes of characters

What characters are: those of words, those that can be printed, white space, and the digits of all
scripts. Classes that a standard fixes by enumeration are tables of `Ranges`; the others are
conditions on code points. Numbers are written and read here as well, since both rest on digits.
-/

/-!
## Code point ranges

A property of characters that a standard fixes by enumeration is kept as a list of closed ranges of
code points. `Ranges.contains` is membership in such a list. A table gives the lengths of the gaps
and ranges in turn, packed into large numbers, and `Ranges.ofDigits` unpacks it.
-/

namespace Keyforge.Text

abbrev Ranges := List (Nat × Nat)

namespace Ranges

/-- Numbers to base eight in hexadecimal digits: the last digit of each number is raised by eight. -/
def unpack (high : Nat) : List Nat → List Nat
  | [] => []
  | digit :: rest =>
    if digit < 8 then unpack (8 * high + digit) rest else (8 * high + (digit - 8)) :: unpack 0 rest

/-- The hexadecimal digits of a number, put before others. -/
def digits : (fuel n : Nat) → List Nat → List Nat
  | 0, _, rest => rest
  | fuel + 1, n, rest => if n = 0 then rest else digits fuel (n / 16) (n % 16 :: rest)

def ofRuns (start : Nat) : List Nat → Ranges
  | gap :: length :: rest =>
    (start + gap, start + gap + length - 1) :: ofRuns (start + gap + length) rest
  | _ => []

def ofDigits (packed : List Nat) : Ranges :=
  ofRuns 0 (unpack 0 (packed.flatMap fun n => digits (n.log2 + 1) n []))

def contains (ranges : Ranges) (code : Nat) : Bool :=
  ranges.any fun (first, last) => first ≤ code && code ≤ last

end Ranges

/-!
## Word characters

Letters, numbers of any script and the underscore make up words: names of defines consist of them,
and a reference to a tap dance starts where a word starts.
-/

def wordRanges : Ranges := .ofDigits [
  0x25a9fa99ba9b92f93f971ac1c1edf999209d9aac99e99b9992c912b921b1824e94ea9e5910f3bcc5d5b2d1aca914b9,
  0x91faf1fa928993e3d1391b91e5b19ac9d2ec9199b92f39f1bd389e295a7a6eb92a9f1ac1a928c18aaa2e9f99bcb928,
  0x91da9bc1caea918ecaa2e9f9a9a9a3fc99f1aab28199b92e9f9a9db92a91fac1a1991b18aaa2e9f9a9db93ea9bc1a9,
  0xf1b99ebb9cba999ababbb1c2e92d1d2a189b92f928b93aba9aac1a18f99c189b92f91a9db93fa9ac1a9a29199b959a,
  0x9289db91ac2b9ed2ab3891999af3f1a29689a1cf191a4fa999d9389991a9a199ad99191aac4893f2c1c1894c3bd16b,
  0x5b2c1beeccb9bafbc1d1c991ae4e99d9a5b951d9caf999ca599ca499caf999ca1f9799ca10b1e2cb282812eaeb115c,
  0xa2993ad11bb1bf2a1d2b1e2a1e1d9b1f6c4b9c9b1ae1a2e1ae139fda4a99d10e1a3f4f58ad1b5cc3ae1b4d2f196d5b,
  0x1ae1a1d913d5f2918b1a593e1d783a4c3c1ab69a19f5bab59c9e9ab9d30810842eaea4eaea1899999993fa6d9f99bb,
  0x9fbcaec1ddb9f16baaed1be1d14d9c9a1a99bde999999c91bacddc997a132e7c11e2e116e3e215c34decba199a4e99,
  0xd9a78f9282f19f9f9f9f9f9f9f9f128972db3919fdadc12eeb913a9cd5b913ebc1a486828481a3e1891f481a4f1f,
  0x508147081085321d10b5ea41db3c2c5f283fa1284f19a14fa108da999d38289b9c92f1de1a6c1e6a3c1a38eb99a94e,
  0x1a2f393df5f3c1bed9399592fb918c1ae2fb9b6a99baada99938ba1bfb1ceaeae19f9f95b91ee16b1d1ae2564c1c2f,
  0xc692040c55ea15a4ef1cdd991a91d9d999a9a915c4955b2a108a6e581c16cd920f2b1af3ae3a1b139beaeaeab4b1c9,
  0x3a92b9a91fa1e4a17b1c5d1c7929a36c3db69283bc4c193ed4e1a3ea4cc189d5a23ea1ae4cc4cc58186c1c1b91f9f9,
  0xa91b91f9f9a10b46f192e1a1838e95a91910dea995c9ab9a2fa3fa4e1819682b9ad49c3a10e78c2ca5f1fc9b93d1a,
  0x192f3f948481893ced286e1a2ea3bd3a2ff1281196f6b1d6bf5a1c1a44e3f95aea11e58182e1bc3b2a5e3c2c2f1c6d,
  0x3a3e9aa91d5d4839f1a194c1f1ac9a9184bb91c681ec1b1b99c2c1b2a93912cf999c91f91af5f291a1b18aaa2e9f9a,
  0x9db92a91cd23e6d2acd1adb3e682ca99181a24e5f59c4c682c91b1a4e5b1d9f1a6e3b2d1ccf2795c16c12b1c18a9a,
  0x189a9381f9991e1a10e18a4f289993c91a58f92d91b5e2b92a11940f1994d2991f3dd3e168f9a94e2d9191aee9a948,
  0x1e9f1a46e2b27d91f2d5b163a14e15f2930c511c1491f205f7729110f206791079f3f91ae11f91ae3e2a6828c1c1a9,
  0xf92dd2b126812f15911bd910a1d108a993c1377818232e5a192134fc9f9a944b5db29c1861c440c15bd1db19f1a,
  0x1310e2c15c3920f12d910f9aa9aaac91c999f91099ca189f93c9c9d99bf952ca3993993f93993f93993f93993f9399,
  0x18a6a34083f7495d1afa1ac95093e2a5cc1a234ef9c9a91f930da196810cf9c1a142f7b9b9c11c5d91f30ac93b9a99,
  0xa991a9c9999e9c999999b9a99a9999999999a99ac9f9c9c9991a929db9d929110c1d534b1a200e1233484810079f,
  0x33ea1320a1e16469603f103e274a1151b]

def isWord (c : Char) : Bool :=
  if c.toNat < 0x80 then c.isAlphanum || c == '_' else wordRanges.contains c.toNat

/-!
## Printable characters

A quoted text shows printable characters as they are and escapes all others. Control and format
characters, unassigned code points, private use and all separators but the plain space are not
printable.
-/

def unprintableRanges : Ranges := .ofDigits [
  0x208491c9131aaecf9992c961d94ea6aab96f183bce292e9308968a7ba14d1e7ba69a1f93ca991bd3f1911a9249918a,
  0xaa2e9f99bca19aaac189ca9da39ab9ecaa2e9f9a9a9aa99dcaabb9fc99f291ab9199b92e9f9a9da1a9b9ba91fca1cf,
  0xf9b918aaa2e9f9a9da19aaabfbca9da2a1aa9ebb9cba999ababbb1ccdbb9ca9e91e2dd1d9b92f928a199b9cfa9ba9a,
  0xca1af2e9b92f91a9da199b9cfaea9ca1a9a1d1d9b96b9b9ec28a3a9b92ab3891999afb9ce99918e1aab1c7ac3d4da9,
  0x99d9389992fad999ea1aac4811894cc4f94c91f91d4d30e99d9a5799caf999ca599ca499caf999ca1f9799ca10ba48,
  0xb3ae12eaea120893cb139f2e1938192c1c1d9b9a1c13ea1ae1ae1e91be139f5bd10e1a3f91cc1cc9b5aad1b5cc3ae,
  0x1bb7ea10993da1be1ae1ea3f6911db5f916c187cb1fb7cf5ba1b185bd102eaea4eaea1899999993fa6d91f91eae92b,
  0xab9192938185f29aa3b91db491f491f21cc122f391b2d342ca48953dd5d99d9a78fa1e3819f9f9f9f9f9f9f9f917e,
  0x4a3a91391c32e3a1cd7f912ea14fd5b913e912c1c5f97115db6f1953c2c2781831bda999d387bb1ae781810e181ce,
  0x16c1b3eb11e91bc4996f191ea1aa14f383c1aeaeae19f9f97cc17ea1ae2564c1c2fc69c40081440855ea15a4ef1cdd,
  0x3a9d999a9a917d2867da6ef9485ae6b92b9ccd920fc27ebeaeaeabbf9f1daa1c93a92b9a91fa1e4a17bdbc5db1389,
  0x1db95f5e20a3db691f3cc4c193ed5bd3e94dc1e5a23ea1ae4cc4cc58186c1b1c91f9f9a91b91f9f9a10b46f192e1a,
  0x1838e95a91910dea995c9ab9a2f91181819682b9ad49b3bd910878c2ca6a9ad189b93dabc1af19f108484fc1c196eb,
  0x3da3bd3afc1cf1281196f6b1d6bf5e181a44e3f95a9baa11e58185a2e3a4e3c2c2f1911ec4c197e9d1d39f1ae6d92a,
  0x184f1914892c1b2a95c109f999c91f91be7bd1aec918aaa2e9f9a9d91aaaaba9e9dfafbd21b13c9d3e118181a24e6e,
  0xa4e4a10d1b1ae1d2b7ae1a6e3ba1fc2f2797c14c12b1c18a9a189a93e9aa1c191a10e18a5ea1b3b1181812b1d119,
  0x40f1995d91e1a3db48a2e91e119f9a95cb99a919181aee9a94d9a9ef1a46e3926f91f6a1d163b14e15f9d1b30c511c,
  0x14b1d205f7729110f206791079f3f91ac12991ae3eae1a10e1a1a9f92dd2b126813b14d11bc79f29108d1ba1e13778,
  0x18232e5a192134fc9f9a944b5db29c1861c440c15bd1db19f1aac111485ea2f1916c7c36e1a4fa11a181682d10e23a,
  0x2c1c12f193920f12d910f9aa9aaac91c999f91099ca189f93c9c9d99bf952ca44ca127e1fd91f21283f349f929af9a,
  0x9d32d5db1ea1aca5083f297ad92348f9c9a91f930da285911cc1aca142910c11c7d30ac93b9a99a991a9c9999e9c99,
  0x9999b9a99a9999999999a99ac9f9c9c9991a929db9d9296ca41e5cc14c1c1fa1f91f94d1a25e783d1d5cc19fa1ee,
  0x23a1738d28b1db16c1c139f1cc91f1cc78181ae58183eaa11e52c1c1eadbdbf193db1bde1a1ae1818f1922b96f4d1a,
  0x200e1233484810079f33ea1320a1e16469603f103e274a1151b256666d368577028]

def isPrintable (c : Char) : Bool :=
  if c.toNat < 0x80 then 0x20 ≤ c.toNat && c.toNat < 0x7f
  else !unprintableRanges.contains c.toNat

/-!
## The final sigma

A capital sigma becomes a different small letter at the end of a word: if a letter with case stands
before it and none after it. Accents, apostrophes and the like in between do not count.
-/

def caseIgnorableRanges : Ranges := .ofDigits [
  0x4f9e91b94b99910f9c999c9aa76f308cac919a9937bf31f9d9695d999a9a995c91be1a1b994b91a2d28914d1891a9c,
  0x499993e3b13b1b7a1bc9a938385bb5c9fae18597a6f999c18c9bf1aa1d91f97a9cc1892ca3a9aa799cacaabb93eab9,
  0x1ba799cd9ac92ca2ee997a9a99c189fa1ba3e97d91c96a9b96f99bdb9cfa1ba3d97a9a9e9da2ca3ca79acc1892ca3d,
  0x91189fb9913a9af1b1914a9a191999e11aa3b999996f1e9d9ad1b94c19914ec9e9aaa39acb28c1d9aae91f913e9,
  0x1148b166ab3da3ea3ea108a9f189a1bb9d95dd6b9109a4a916ebca199eb33baa97a99f9999a18e1aa94f9183f69c68,
  0x99d99d958191ca48caa9b7899ab99b7a18aa108e12ab91d9fc9e9ba6a7f1d94a14d67d99b1bb1db1db1da1cd18a1a9,
  0xa9ad69d91a991d9281d6b49561ba169b17d91f9148485f972d94ccbdd913de13db6742e9234ae41e914ac91a993cc,
  0x128a1e4a11e92fb14fbba189b9c939ad922fa3a2a1d94e18391b5eb689acaa2992da10aeaaaa1c91894b91b96b99ba,
  0xada993b91eada9914cd19b1799a9c947468922b29107d28b91c284a9a92599f9e91b94b9995f95da10b92db10099,
  0x34a922dd200de95a919110eb9adc58bc924da107dc60ba2391b69c17b96e1f599aa1ab69caaa9c91a96ab4cd9187e9,
  0x1ca6c191aca913fba99ae92489b182da79ab94dfbd30b18ab992f912ce99ca9a35ecea9a3ba12d18a99a15a999ae99,
  0x14dbac9d40b199a408a99c9228caac9481a58eac18919eab5e1d9a62ef9e9912a2eaf9a9a17aeb99a9f99118ab999,
  0x53ba1247b193326fd7bf19c201b97f29108a9a4001bc9f9a623ea9c1113c5ea2f1048b1928af3ec22cb367b6fc6a18,
  0x91e92ed91f2528f929af9a9d40d1e56897dc2748f15d18525fd300600993e148208368]

def casedRanges : Ranges := .ofDigits [
  0x1093ae3a5f91a9c9d2f93f930b9cc32893b308caabb99e99b9992c912b921b1824e94e1959542f4e99d9a5bab1248,
  0x12eae420a19f5bab1085c7f1d94a14d42eaea4eaea1899999993fa6d9f99bb9fbcaec1ddb9f40d9c9a1a99bde99999,
  0x9c9ec9acddc92948ba14696c342e17ca14fecba1c4e99d97442a5e2a3c20e11e92fbc97bda999d3bab9146d5bd19f,
  0x12847508f1cd20193ae3a224d1281484cc4c16c1b91f9f9a91b91f9f9a330b6b1d6b565d108525481086260812d9,
  0x10f9aa9aaac91c999f91099ca189f93c9c9d99bf952ca3993993f93993f93993f93993f939918346c1a92c474910c,
  0x375c3ae3ae3a]

def meetsCased (cs : List Char) : Bool :=
  match cs.dropWhile fun c => caseIgnorableRanges.contains c.toNat with
  | c :: _ => casedRanges.contains c.toNat
  | [] => false

def isFinalSigma (before after : List Char) : Bool := meetsCased before && !meetsCased after

/-!
## White space

White space separates the parts of a line and is dropped around names and values. It includes the
line separators, the four information separators and the wide spaces of Unicode.
-/

def isBlank (c : Char) : Bool :=
  let n := c.toNat
  (0x09 ≤ n && n ≤ 0x0d) || (0x1c ≤ n && n ≤ 0x20) || n == 0x85 || n == 0xa0 || n == 0x1680 ||
    (0x2000 ≤ n && n ≤ 0x200a) || n == 0x2028 || n == 0x2029 || n == 0x202f || n == 0x205f ||
    n == 0x3000

def isPlainBlank (c : Char) : Bool := isBlank c && !(0x1c ≤ c.toNat && c.toNat ≤ 0x1f)

def dropWhileEnd (p : Char → Bool) (cs : List Char) : List Char :=
  (cs.reverse.dropWhile p).reverse

def trimLeft (cs : List Char) : List Char := cs.dropWhile isBlank

def trimRight (cs : List Char) : List Char := dropWhileEnd isBlank cs

def trim (cs : List Char) : List Char := trimRight (trimLeft cs)

def trimPlain (cs : List Char) : List Char := dropWhileEnd isPlainBlank (cs.dropWhile isPlainBlank)

def strip (s : String) : String := String.ofList (trim s.toList)

def stripRight (s : String) : String := String.ofList (trimRight s.toList)

def skipBlanks1? : List Char → Option (List Char)
  | c :: rest => if isBlank c then some (trimLeft rest) else none
  | [] => none

/-!
## Decimal digits

Numbers in documents and settings may be written with the decimal digits of any script. The table
holds the code point of each script's zero; its nine successors are the other digits.
-/

def digitZeros : List Nat :=
  [0x30, 0x660, 0x6f0, 0x7c0, 0x966, 0x9e6, 0xa66, 0xae6,
   0xb66, 0xbe6, 0xc66, 0xce6, 0xd66, 0xde6, 0xe50, 0xed0,
   0xf20, 0x1040, 0x1090, 0x17e0, 0x1810, 0x1946, 0x19d0, 0x1a80,
   0x1a90, 0x1b50, 0x1bb0, 0x1c40, 0x1c50, 0xa620, 0xa8d0, 0xa900,
   0xa9d0, 0xa9f0, 0xaa50, 0xabf0, 0xff10, 0x104a0, 0x10d30, 0x11066,
   0x110f0, 0x11136, 0x111d0, 0x112f0, 0x11450, 0x114d0, 0x11650, 0x116c0,
   0x11730, 0x118e0, 0x11950, 0x11c50, 0x11d50, 0x11da0, 0x16a60, 0x16ac0,
   0x16b50, 0x1d7ce, 0x1d7d8, 0x1d7e2, 0x1d7ec, 0x1d7f6, 0x1e140, 0x1e2f0,
   0x1e950, 0x1fbf0]

def digitValue? (c : Char) : Option Nat :=
  if c.isDigit then some (c.toNat - '0'.toNat)
  else if c.toNat < 0x80 then none
  else (digitZeros.find? fun start => start ≤ c.toNat && c.toNat < start + 10).map (c.toNat - ·)

def isDigit (c : Char) : Bool := (digitValue? c).isSome

def natOfDigits (cs : List Char) : Nat :=
  cs.foldl (fun n c => 10 * n + (digitValue? c).getD 0) 0

def natText (n : Nat) : String := String.ofList (Nat.toDigits 10 n)

def intText (n : Int) : String :=
  if n < 0 then "-" ++ natText n.natAbs else natText n.natAbs

end Keyforge.Text
