import TextVectors.Text.CodeSet

/-!
# Case and accents

Two foldings of text that a vocabulary may ask for. `lower` takes each character
to its lower-case form, which is one character except for the capital I with a
dot. `unaccented` takes each character to the letters of its canonical
decomposition, without the marks that take no space of their own; the syllables
of Hangul decompose by arithmetic, all else by table.
-/

namespace TextVectors

namespace Text

/-- A run of capitals: the first, how many there are, the distance between two of them, and the
distance from each to its lower-case form. -/
structure CaseRun where
  first : Nat
  count : Nat
  step : Nat
  shift : Int

/-- Reads a run from its four numbers. -/
private def CaseRun.ofText (text : String) : CaseRun :=
  match (text.splitOn ".").map String.toList with
  | [first, count, step, '-' :: shift] =>
    ⟨(Number.readHex? first).getD 0, (Number.readHex? count).getD 0,
      (Number.readHex? step).getD 1, -((Number.readHex? shift).getD 0 : Nat)⟩
  | [first, count, step, shift] =>
    ⟨(Number.readHex? first).getD 0, (Number.readHex? count).getD 0,
      (Number.readHex? step).getD 1, ((Number.readHex? shift).getD 0 : Nat)⟩
  | _ => ⟨0, 0, 1, 0⟩

/-- The runs of capitals, in increasing order. -/
def caseRuns : List CaseRun :=
  (List.flatMap (·.splitOn " ")
    ["41.1a.1.20 c0.17.1.20 d8.7.1.20 100.18.2.1 132.3.2.1 139.8.2.1 14a.17.2.1 178.1.1.-79",
    "179.3.2.1 181.1.1.d2 182.2.2.1 186.1.1.ce 187.1.1.1 189.2.1.cd 18b.1.1.1 18e.1.1.4f",
    "18f.1.1.ca 190.1.1.cb 191.1.1.1 193.1.1.cd 194.1.1.cf 196.1.1.d3 197.1.1.d1 198.1.1.1",
    "19c.1.1.d3 19d.1.1.d5 19f.1.1.d6 1a0.3.2.1 1a6.1.1.da 1a7.1.1.1 1a9.1.1.da 1ac.1.1.1",
    "1ae.1.1.da 1af.1.1.1 1b1.2.1.d9 1b3.2.2.1 1b7.1.1.db 1b8.1.1.1 1bc.1.1.1 1c4.1.1.2 1c5.1.1.1",
    "1c7.1.1.2 1c8.1.1.1 1ca.1.1.2 1cb.9.2.1 1de.9.2.1 1f1.1.1.2 1f2.2.2.1 1f6.1.1.-61",
    "1f7.1.1.-38 1f8.14.2.1 220.1.1.-82 222.9.2.1 23a.1.1.2a2b 23b.1.1.1 23d.1.1.-a3 23e.1.1.2a28",
    "241.1.1.1 243.1.1.-c3 244.1.1.45 245.1.1.47 246.5.2.1 370.2.2.1 376.1.1.1 37f.1.1.74",
    "386.1.1.26 388.3.1.25 38c.1.1.40 38e.2.1.3f 391.11.1.20 3a3.9.1.20 3cf.1.1.8 3d8.c.2.1",
    "3f4.1.1.-3c 3f7.1.1.1 3f9.1.1.-7 3fa.1.1.1 3fd.3.1.-82 400.10.1.50 410.20.1.20 460.11.2.1",
    "48a.1b.2.1 4c0.1.1.f 4c1.7.2.1 4d0.30.2.1 531.26.1.30 10a0.26.1.1c60 10c7.1.1.1c60",
    "10cd.1.1.1c60 13a0.50.1.97d0 13f0.6.1.8 1c90.2b.1.-bc0 1cbd.3.1.-bc0 1e00.4b.2.1",
    "1e9e.1.1.-1dbf 1ea0.30.2.1 1f08.8.1.-8 1f18.6.1.-8 1f28.8.1.-8 1f38.8.1.-8 1f48.6.1.-8",
    "1f59.4.2.-8 1f68.8.1.-8 1f88.8.1.-8 1f98.8.1.-8 1fa8.8.1.-8 1fb8.2.1.-8 1fba.2.1.-4a",
    "1fbc.1.1.-9 1fc8.4.1.-56 1fcc.1.1.-9 1fd8.2.1.-8 1fda.2.1.-64 1fe8.2.1.-8 1fea.2.1.-70",
    "1fec.1.1.-7 1ff8.2.1.-80 1ffa.2.1.-7e 1ffc.1.1.-9 2126.1.1.-1d5d 212a.1.1.-20bf",
    "212b.1.1.-2046 2132.1.1.1c 2160.10.1.10 2183.1.1.1 24b6.1a.1.1a 2c00.30.1.30 2c60.1.1.1",
    "2c62.1.1.-29f7 2c63.1.1.-ee6 2c64.1.1.-29e7 2c67.3.2.1 2c6d.1.1.-2a1c 2c6e.1.1.-29fd",
    "2c6f.1.1.-2a1f 2c70.1.1.-2a1e 2c72.1.1.1 2c75.1.1.1 2c7e.2.1.-2a3f 2c80.32.2.1 2ceb.2.2.1",
    "2cf2.1.1.1 a640.17.2.1 a680.e.2.1 a722.7.2.1 a732.1f.2.1 a779.2.2.1 a77d.1.1.-8a04",
    "a77e.5.2.1 a78b.1.1.1 a78d.1.1.-a528 a790.2.2.1 a796.a.2.1 a7aa.1.1.-a544 a7ab.1.1.-a54f",
    "a7ac.1.1.-a54b a7ad.1.1.-a541 a7ae.1.1.-a544 a7b0.1.1.-a512 a7b1.1.1.-a52a a7b2.1.1.-a515",
    "a7b3.1.1.3a0 a7b4.8.2.1 a7c4.1.1.-30 a7c5.1.1.-a543 a7c6.1.1.-8a38 a7c7.2.2.1 a7d0.1.1.1",
    "a7d6.2.2.1 a7f5.1.1.1 ff21.1a.1.20 10400.28.1.28 104b0.24.1.28 10570.b.1.27 1057c.f.1.27",
    "1058c.7.1.27 10594.2.1.27 10c80.33.1.40 118a0.20.1.20 16e40.20.1.20 1e900.22.1.22"]).map
      CaseRun.ofText

/-- The run that a code point belongs to. -/
private def caseRun? (code : Nat) : Option CaseRun :=
  caseRuns.find? fun run =>
    run.first ≤ code && code < run.first + run.count * run.step &&
      (code - run.first) % run.step == 0

/-- The lower-case form of a character. -/
def lower (c : Char) : List Char :=
  if c.toNat < 128 then [c.toLower]
  else if c.toNat == 0x130 then ['i', Char.ofNat 0x307]
  else
    match caseRun? c.toNat with
    | some run => [Char.ofNat (c.toNat + run.shift).toNat]
    | none => [c]

/-- Reads the table of decompositions: each entry gives the distance of its character from the
one before, and the code points that are left of it. -/
private def readDecompositions (lines : List String) : Array (Nat × List Char) :=
  ((lines.flatMap (·.splitOn " ")).foldl
    (fun (entries, last) word =>
      match (word.splitOn ".").map fun part => (Number.readHex? part.toList).getD 0 with
      | [] => (entries, last)
      | distance :: codes =>
        (entries.push (last + distance, codes.map Char.ofNat), last + distance))
    ((#[], 0) : Array (Nat × List Char) × Nat)).1

/-- What is left of the characters that have a canonical decomposition, in increasing order. -/
def decompositions : Array (Nat × List Char) :=
  readDecompositions
    ["c0.41 1.41 1.41 1.41 1.41 1.41 2.43 1.45 1.45 1.45 1.45 1.49 1.49 1.49 1.49 2.4e 1.4f 1.4f",
    "1.4f 1.4f 1.4f 3.55 1.55 1.55 1.55 1.59 3.61 1.61 1.61 1.61 1.61 1.61 2.63 1.65 1.65 1.65",
    "1.65 1.69 1.69 1.69 1.69 2.6e 1.6f 1.6f 1.6f 1.6f 1.6f 3.75 1.75 1.75 1.75 1.79 2.79 1.41",
    "1.61 1.41 1.61 1.41 1.61 1.43 1.63 1.43 1.63 1.43 1.63 1.43 1.63 1.44 1.64 3.45 1.65 1.45",
    "1.65 1.45 1.65 1.45 1.65 1.45 1.65 1.47 1.67 1.47 1.67 1.47 1.67 1.47 1.67 1.48 1.68 3.49",
    "1.69 1.49 1.69 1.49 1.69 1.49 1.69 1.49 4.4a 1.6a 1.4b 1.6b 2.4c 1.6c 1.4c 1.6c 1.4c 1.6c",
    "5.4e 1.6e 1.4e 1.6e 1.4e 1.6e 4.4f 1.6f 1.4f 1.6f 1.4f 1.6f 3.52 1.72 1.52 1.72 1.52 1.72",
    "1.53 1.73 1.53 1.73 1.53 1.73 1.53 1.73 1.54 1.74 1.54 1.74 3.55 1.75 1.55 1.75 1.55 1.75",
    "1.55 1.75 1.55 1.75 1.55 1.75 1.57 1.77 1.59 1.79 1.59 1.5a 1.7a 1.5a 1.7a 1.5a 1.7a 22.4f",
    "1.6f e.55 1.75 1d.41 1.61 1.49 1.69 1.4f 1.6f 1.55 1.75 1.55 1.75 1.55 1.75 1.55 1.75 1.55",
    "1.75 2.41 1.61 1.41 1.61 1.c6 1.e6 3.47 1.67 1.4b 1.6b 1.4f 1.6f 1.4f 1.6f 1.1b7 1.292 1.6a",
    "4.47 1.67 3.4e 1.6e 1.41 1.61 1.c6 1.e6 1.d8 1.f8 1.41 1.61 1.41 1.61 1.45 1.65 1.45 1.65",
    "1.49 1.69 1.49 1.69 1.4f 1.6f 1.4f 1.6f 1.52 1.72 1.52 1.72 1.55 1.75 1.55 1.75 1.53 1.73",
    "1.54 1.74 3.48 1.68 7.41 1.61 1.45 1.65 1.4f 1.6f 1.4f 1.6f 1.4f 1.6f 1.4f 1.6f 1.59 1.79",
    "10d 1 2 1 30.2b9 a.3b 7.a8 1.391 1.b7 1.395 1.397 1.399 2.39f 2.3a5 1.3a9 1.3b9 1a.399 1.3a5",
    "1.3b1 1.3b5 1.3b7 1.3b9 1.3c5 1a.3b9 1.3c5 1.3bf 1.3c5 1.3c9 5.3d2 1.3d2 2c.415 1.415 2.413",
    "4.406 5.41a 1.418 1.423 b.418 20.438 17.435 1.435 2.433 4.456 5.43a 1.438 1.443 18.474 1.475",
    "4a.416 1.436 e.410 1.430 1.410 1.430 3.415 1.435 3.4d8 1.4d9 1.416 1.436 1.417 1.437 3.418",
    "1.438 1.418 1.438 1.41e 1.43e 3.4e8 1.4e9 1.42d 1.44d 1.423 1.443 1.423 1.443 1.423 1.443",
    "1.427 1.447 3.42b 1.44b 129.627 1.627 1.648 1.627 1.64a 9a.6d5 2.6c1 11.6d2 256.928 8.930",
    "3.933 24.915 1.916 1.917 1.91c 1.921 1.922 1.92b 1.92f 6c.9c7.9be 1.9c7.9d7 10.9a1 1.9a2",
    "2.9af 54.a32 3.a38 23.a16 1.a17 1.a1c 3.a2b ea.b47 3.b47.b3e 1.b47.b57 10.b21 1.b22",
    "37.b92.bd7 36.bc6.bbe 1.bc7.bbe 1.bc6.bd7 7c 78.cd5 7.cd5 1.cd6 2.cc2 1.cc2.cd5 7f.d46.d3e",
    "1.d47.d3e 1.d46.d57 8e.dd9 2.dd9.dcf 1.dd9.dcf 1.dd9.ddf 165.f42 a.f4c 5.f51 5.f56 5.f5b",
    "d.f40 a 2 1 2 9 12 a 5 5 5 d 6d.1025 ae0.1b05.1b35 2.1b07.1b35 2.1b09.1b35 2.1b0b.1b35",
    "2.1b0d.1b35 4.1b11.1b35 29.1b35 2.1b35 3.1b3e.1b35 1.1b3f.1b35 2.1b35 2bd.41 1.61 1.42 1.62",
    "1.42 1.62 1.42 1.62 1.43 1.63 1.44 1.64 1.44 1.64 1.44 1.64 1.44 1.64 1.44 1.64 1.45 1.65",
    "1.45 1.65 1.45 1.65 1.45 1.65 1.45 1.65 1.46 1.66 1.47 1.67 1.48 1.68 1.48 1.68 1.48 1.68",
    "1.48 1.68 1.48 1.68 1.49 1.69 1.49 1.69 1.4b 1.6b 1.4b 1.6b 1.4b 1.6b 1.4c 1.6c 1.4c 1.6c",
    "1.4c 1.6c 1.4c 1.6c 1.4d 1.6d 1.4d 1.6d 1.4d 1.6d 1.4e 1.6e 1.4e 1.6e 1.4e 1.6e 1.4e 1.6e",
    "1.4f 1.6f 1.4f 1.6f 1.4f 1.6f 1.4f 1.6f 1.50 1.70 1.50 1.70 1.52 1.72 1.52 1.72 1.52 1.72",
    "1.52 1.72 1.53 1.73 1.53 1.73 1.53 1.73 1.53 1.73 1.53 1.73 1.54 1.74 1.54 1.74 1.54 1.74",
    "1.54 1.74 1.55 1.75 1.55 1.75 1.55 1.75 1.55 1.75 1.55 1.75 1.56 1.76 1.56 1.76 1.57 1.77",
    "1.57 1.77 1.57 1.77 1.57 1.77 1.57 1.77 1.58 1.78 1.58 1.78 1.59 1.79 1.5a 1.7a 1.5a 1.7a",
    "1.5a 1.7a 1.68 1.74 1.77 1.79 2.17f 5.41 1.61 1.41 1.61 1.41 1.61 1.41 1.61 1.41 1.61 1.41",
    "1.61 1.41 1.61 1.41 1.61 1.41 1.61 1.41 1.61 1.41 1.61 1.41 1.61 1.45 1.65 1.45 1.65 1.45",
    "1.65 1.45 1.65 1.45 1.65 1.45 1.65 1.45 1.65 1.45 1.65 1.49 1.69 1.49 1.69 1.4f 1.6f 1.4f",
    "1.6f 1.4f 1.6f 1.4f 1.6f 1.4f 1.6f 1.4f 1.6f 1.4f 1.6f 1.4f 1.6f 1.4f 1.6f 1.4f 1.6f 1.4f",
    "1.6f 1.4f 1.6f 1.55 1.75 1.55 1.75 1.55 1.75 1.55 1.75 1.55 1.75 1.55 1.75 1.55 1.75 1.59",
    "1.79 1.59 1.79 1.59 1.79 1.59 1.79 7.3b1 1.3b1 1.3b1 1.3b1 1.3b1 1.3b1 1.3b1 1.3b1 1.391",
    "1.391 1.391 1.391 1.391 1.391 1.391 1.391 1.3b5 1.3b5 1.3b5 1.3b5 1.3b5 1.3b5 3.395 1.395",
    "1.395 1.395 1.395 1.395 3.3b7 1.3b7 1.3b7 1.3b7 1.3b7 1.3b7 1.3b7 1.3b7 1.397 1.397 1.397",
    "1.397 1.397 1.397 1.397 1.397 1.3b9 1.3b9 1.3b9 1.3b9 1.3b9 1.3b9 1.3b9 1.3b9 1.399 1.399",
    "1.399 1.399 1.399 1.399 1.399 1.399 1.3bf 1.3bf 1.3bf 1.3bf 1.3bf 1.3bf 3.39f 1.39f 1.39f",
    "1.39f 1.39f 1.39f 3.3c5 1.3c5 1.3c5 1.3c5 1.3c5 1.3c5 1.3c5 1.3c5 2.3a5 2.3a5 2.3a5 2.3a5",
    "1.3c9 1.3c9 1.3c9 1.3c9 1.3c9 1.3c9 1.3c9 1.3c9 1.3a9 1.3a9 1.3a9 1.3a9 1.3a9 1.3a9 1.3a9",
    "1.3a9 1.3b1 1.3b1 1.3b5 1.3b5 1.3b7 1.3b7 1.3b9 1.3b9 1.3bf 1.3bf 1.3c5 1.3c5 1.3c9 1.3c9",
    "3.3b1 1.3b1 1.3b1 1.3b1 1.3b1 1.3b1 1.3b1 1.3b1 1.391 1.391 1.391 1.391 1.391 1.391 1.391",
    "1.391 1.3b7 1.3b7 1.3b7 1.3b7 1.3b7 1.3b7 1.3b7 1.3b7 1.397 1.397 1.397 1.397 1.397 1.397",
    "1.397 1.397 1.3c9 1.3c9 1.3c9 1.3c9 1.3c9 1.3c9 1.3c9 1.3c9 1.3a9 1.3a9 1.3a9 1.3a9 1.3a9",
    "1.3a9 1.3a9 1.3a9 1.3b1 1.3b1 1.3b1 1.3b1 1.3b1 2.3b1 1.3b1 1.391 1.391 1.391 1.391 1.391",
    "2.3b9 3.a8 1.3b7 1.3b7 1.3b7 2.3b7 1.3b7 1.395 1.395 1.397 1.397 1.397 1.1fbf 1.1fbf 1.1fbf",
    "1.3b9 1.3b9 1.3b9 1.3b9 3.3b9 1.3b9 1.399 1.399 1.399 1.399 2.1ffe 1.1ffe 1.1ffe 1.3c5 1.3c5",
    "1.3c5 1.3c5 1.3c1 1.3c1 1.3c5 1.3c5 1.3a5 1.3a5 1.3a5 1.3a5 1.3a1 1.a8 1.a8 1.60 3.3c9 1.3c9",
    "1.3c9 2.3c9 1.3c9 1.39f 1.39f 1.3a9 1.3a9 1.3a9 1.b4 3.2002 1.2003 125.3a9 4.4b 1.41 6f.2190",
    "1.2192 13.2194 1f.21d0 1.21d4 1.21d2 35.2203 5.2208 3.220b 18.2223 2.2225 1b.223c 3.2243",
    "3.2245 2.2248 17.3d 2.2261 b.224d 1.3c 1.3e 1.2264 1.2265 3.2272 1.2273 3.2276 1.2277 7.227a",
    "1.227b 3.2282 1.2283 3.2286 1.2287 23.22a2 1.22a8 1.22a9 1.22ab 31.227c 1.227d 1.2291 1.2292",
    "7.22b2 1.22b3 1.22b4 1.22b5 3c.3008 1.3009 7b2.2add 570.304b 2.304d 2.304f 2.3051 2.3053",
    "2.3055 2.3057 2.3059 2.305b 2.305d 2.305f 2.3061 3.3064 2.3066 2.3068 7.306f 1.306f 2.3072",
    "1.3072 2.3075 1.3075 2.3078 1.3078 2.307b 1.307b 17.3046 a.309d e.30ab 2.30ad 2.30af 2.30b1",
    "2.30b3 2.30b5 2.30b7 2.30b9 2.30bb 2.30bd 2.30bf 2.30c1 3.30c4 2.30c6 2.30c8 7.30cf 1.30cf",
    "2.30d2 1.30d2 2.30d5 1.30d5 2.30d8 1.30d8 2.30db 1.30db 17.30a6 3.30ef 1.30f0 1.30f1 1.30f2",
    "4.30fd c802.8c48 1.66f4 1.8eca 1.8cc8 1.6ed1 1.4e32 1.53e5 1.9f9c 1.9f9c 1.5951 1.91d1",
    "1.5587 1.5948 1.61f6 1.7669 1.7f85 1.863f 1.87ba 1.88f8 1.908f 1.6a02 1.6d1b 1.70d9 1.73de",
    "1.843d 1.916a 1.99f1 1.4e82 1.5375 1.6b04 1.721b 1.862d 1.9e1e 1.5d50 1.6feb 1.85cd 1.8964",
    "1.62c9 1.81d8 1.881f 1.5eca 1.6717 1.6d6a 1.72fc 1.90ce 1.4f86 1.51b7 1.52de 1.64c4 1.6ad3",
    "1.7210 1.76e7 1.8001 1.8606 1.865c 1.8def 1.9732 1.9b6f 1.9dfa 1.788c 1.797f 1.7da0 1.83c9",
    "1.9304 1.9e7f 1.8ad6 1.58df 1.5f04 1.7c60 1.807e 1.7262 1.78ca 1.8cc2 1.96f7 1.58d8 1.5c62",
    "1.6a13 1.6dda 1.6f0f 1.7d2f 1.7e37 1.964b 1.52d2 1.808b 1.51dc 1.51cc 1.7a1c 1.7dbe 1.83f1",
    "1.9675 1.8b80 1.62cf 1.6a02 1.8afe 1.4e39 1.5be7 1.6012 1.7387 1.7570 1.5317 1.78fb 1.4fbf",
    "1.5fa9 1.4e0d 1.6ccc 1.6578 1.7d22 1.53c3 1.585e 1.7701 1.8449 1.8aaa 1.6bba 1.8fb0 1.6c88",
    "1.62fe 1.82e5 1.63a0 1.7565 1.4eae 1.5169 1.51c9 1.6881 1.7ce7 1.826f 1.8ad2 1.91cf 1.52f5",
    "1.5442 1.5973 1.5eec 1.65c5 1.6ffe 1.792a 1.95ad 1.9a6a 1.9e97 1.9ece 1.529b 1.66c6 1.6b77",
    "1.8f62 1.5e74 1.6190 1.6200 1.649a 1.6f23 1.7149 1.7489 1.79ca 1.7df4 1.806f 1.8f26 1.84ee",
    "1.9023 1.934a 1.5217 1.52a3 1.54bd 1.70c8 1.88c2 1.8aaa 1.5ec9 1.5ff5 1.637b 1.6bae 1.7c3e",
    "1.7375 1.4ee4 1.56f9 1.5be7 1.5dba 1.601c 1.73b2 1.7469 1.7f9a 1.8046 1.9234 1.96f6 1.9748",
    "1.9818 1.4f8b 1.79ae 1.91b4 1.96b8 1.60e1 1.4e86 1.50da 1.5bee 1.5c3f 1.6599 1.6a02 1.71ce",
    "1.7642 1.84fc 1.907c 1.9f8d 1.6688 1.962e 1.5289 1.677b 1.67f3 1.6d41 1.6e9c 1.7409 1.7559",
    "1.786b 1.7d10 1.985e 1.516d 1.622e 1.9678 1.502b 1.5d19 1.6dea 1.8f2a 1.5f8b 1.6144 1.6817",
    "1.7387 1.9686 1.5229 1.540f 1.5c65 1.6613 1.674e 1.68a8 1.6ce5 1.7406 1.75e2 1.7f79 1.88cf",
    "1.88e1 1.91cc 1.96e2 1.533f 1.6eba 1.541d 1.71d0 1.7498 1.85fa 1.96a3 1.9c57 1.9e9f 1.6797",
    "1.6dcb 1.81e8 1.7acb 1.7b20 1.7c92 1.72c0 1.7099 1.8b58 1.4ec0 1.8336 1.523a 1.5207 1.5ea6",
    "1.62d3 1.7cd6 1.5b85 1.6d1e 1.66b4 1.8f3b 1.884c 1.964d 1.898b 1.5ed3 1.5140 1.55c0 3.585a",
    "2.6674 3.51de 1.732a 1.76ca 1.793c 1.795e 1.7965 1.798f 1.9756 1.7cbe 1.7fbd 2.8612 2.8af8",
    "3.9038 1.90fd 4.98ef 1.98fc 1.9928 1.9db4 1.90de 1.96b7 1.4fae 1.50e7 1.514d 1.52c9 1.52e4",
    "1.5351 1.559d 1.5606 1.5668 1.5840 1.58a8 1.5c64 1.5c6e 1.6094 1.6168 1.618e 1.61f2 1.654f",
    "1.65e2 1.6691 1.6885 1.6d77 1.6e1a 1.6f22 1.716e 1.722b 1.7422 1.7891 1.793e 1.7949 1.7948",
    "1.7950 1.7956 1.795d 1.798d 1.798e 1.7a40 1.7a81 1.7bc0 1.7df4 1.7e09 1.7e41 1.7f72 1.8005",
    "1.81ed 1.8279 1.8279 1.8457 1.8910 1.8996 1.8b01 1.8b39 1.8cd3 1.8d08 1.8fb6 1.9038 1.96e3",
    "1.97ff 1.983b 1.6075 1.242ee 1.8218 3.4e26 1.51b5 1.5168 1.4f80 1.5145 1.5180 1.52c7 1.52fa",
    "1.559d 1.5555 1.5599 1.55e2 1.585a 1.58b3 1.5944 1.5954 1.5a62 1.5b28 1.5ed2 1.5ed9 1.5f69",
    "1.5fad 1.60d8 1.614e 1.6108 1.618e 1.6160 1.61f2 1.6234 1.63c4 1.641c 1.6452 1.6556 1.6674",
    "1.6717 1.671b 1.6756 1.6b79 1.6bba 1.6d41 1.6edb 1.6ecb 1.6f22 1.701e 1.716e 1.77a7 1.7235",
    "1.72af 1.732a 1.7471 1.7506 1.753b 1.761d 1.761f 1.76ca 1.76db 1.76f4 1.774a 1.7740 1.78cc",
    "1.7ab1 1.7bc0 1.7c7b 1.7d5b 1.7df4 1.7f3e 1.8005 1.8352 1.83ef 1.8779 1.8941 1.8986 1.8996",
    "1.8abf 1.8af8 1.8acb 1.8b01 1.8afe 1.8aed 1.8b39 1.8b8a 1.8d08 1.8f38 1.9072 1.9199 1.9276",
    "1.967c 1.96e3 1.9756 1.97db 1.97ff 1.980b 1.983b 1.9b12 1.9f9c 1.2284a 1.22844 1.233d5",
    "1.3b9d 1.4018 1.4039 1.25249 1.25cd0 1.27ed3 1.9f43 1.9f8e 44.5d9 2.5f2 b.5e9 1.5e9 1.5e9",
    "1.5e9 1.5d0 1.5d0 1.5d0 1.5d1 1.5d2 1.5d3 1.5d4 1.5d5 1.5d6 2.5d8 1.5d9 1.5da 1.5db 1.5dc",
    "2.5de 2.5e0 1.5e1 2.5e3 1.5e4 2.5e6 1.5e7 1.5e8 1.5e9 1.5ea 1.5d5 1.5d1 1.5db 1.5e4",
    "154c.11099 2.1109b f.110a5 83 1 21c.11347.1133e 1.11347.11357 16f.114b9 1.114b9.114b0",
    "2.114b9.114bd fc.115b8.115af 1.115b9.115af 37d.11935.11930 b826.1d157.1d165 1.1d158.1d165",
    "1.1d158.1d165.1d16e 1.1d158.1d165.1d16f 1.1d158.1d165.1d170 1.1d158.1d165.1d171",
    "1.1d158.1d165.1d172 57.1d1b9.1d165 1.1d1ba.1d165 1.1d1b9.1d165.1d16e 1.1d1ba.1d165.1d16e",
    "1.1d1b9.1d165.1d16f 1.1d1ba.1d165.1d16f 12640.4e3d 1.4e38 1.4e41 1.20122 1.4f60 1.4fae",
    "1.4fbb 1.5002 1.507a 1.5099 1.50e7 1.50cf 1.349e 1.2063a 1.514d 1.5154 1.5164 1.5177 1.2051c",
    "1.34b9 1.5167 1.518d 1.2054b 1.5197 1.51a4 1.4ecc 1.51ac 1.51b5 1.291df 1.51f5 1.5203 1.34df",
    "1.523b 1.5246 1.5272 1.5277 1.3515 1.52c7 1.52c9 1.52e4 1.52fa 1.5305 1.5306 1.5317 1.5349",
    "1.5351 1.535a 1.5373 1.537d 1.537f 1.537f 1.537f 1.20a2c 1.7070 1.53ca 1.53df 1.20b63 1.53eb",
    "1.53f1 1.5406 1.549e 1.5438 1.5448 1.5468 1.54a2 1.54f6 1.5510 1.5553 1.5563 1.5584 1.5584",
    "1.5599 1.55ab 1.55b3 1.55c2 1.5716 1.5606 1.5717 1.5651 1.5674 1.5207 1.58ee 1.57ce 1.57f4",
    "1.580d 1.578b 1.5832 1.5831 1.58ac 1.214e4 1.58f2 1.58f7 1.5906 1.591a 1.5922 1.5962 1.216a8",
    "1.216ea 1.59ec 1.5a1b 1.5a27 1.59d8 1.5a66 1.36ee 1.36fc 1.5b08 1.5b3e 1.5b3e 1.219c8 1.5bc3",
    "1.5bd8 1.5be7 1.5bf3 1.21b18 1.5bff 1.5c06 1.5f53 1.5c22 1.3781 1.5c60 1.5c6e 1.5cc0 1.5c8d",
    "1.21de4 1.5d43 1.21de6 1.5d6e 1.5d6b 1.5d7c 1.5de1 1.5de2 1.382f 1.5dfd 1.5e28 1.5e3d 1.5e69",
    "1.3862 1.22183 1.387c 1.5eb0 1.5eb3 1.5eb6 1.5eca 1.2a392 1.5efe 1.22331 1.22331 1.8201",
    "1.5f22 1.5f22 1.38c7 1.232b8 1.261da 1.5f62 1.5f6b 1.38e3 1.5f9a 1.5fcd 1.5fd7 1.5ff9 1.6081",
    "1.393a 1.391c 1.6094 1.226d4 1.60c7 1.6148 1.614c 1.614e 1.614c 1.617a 1.618e 1.61b2 1.61a4",
    "1.61af 1.61de 1.61f2 1.61f6 1.6210 1.621b 1.625d 1.62b1 1.62d4 1.6350 1.22b0c 1.633d 1.62fc",
    "1.6368 1.6383 1.63e4 1.22bf1 1.6422 1.63c5 1.63a9 1.3a2e 1.6469 1.647e 1.649d 1.6477 1.3a6c",
    "1.654f 1.656c 1.2300a 1.65e3 1.66f8 1.6649 1.3b19 1.6691 1.3b08 1.3ae4 1.5192 1.5195 1.6700",
    "1.669c 1.80ad 1.43d9 1.6717 1.671b 1.6721 1.675e 1.6753 1.233c3 1.3b49 1.67fa 1.6785 1.6852",
    "1.6885 1.2346d 1.688e 1.681f 1.6914 1.3b9d 1.6942 1.69a3 1.69ea 1.6aa8 1.236a3 1.6adb 1.3c18",
    "1.6b21 1.238a7 1.6b54 1.3c4e 1.6b72 1.6b9f 1.6bba 1.6bbb 1.23a8d 1.21d0b 1.23afa 1.6c4e",
    "1.23cbc 1.6cbf 1.6ccd 1.6c67 1.6d16 1.6d3e 1.6d77 1.6d41 1.6d69 1.6d78 1.6d85 1.23d1e 1.6d34",
    "1.6e2f 1.6e6e 1.3d33 1.6ecb 1.6ec7 1.23ed1 1.6df9 1.6f6e 1.23f5e 1.23f8e 1.6fc6 1.7039",
    "1.701e 1.701b 1.3d96 1.704a 1.707d 1.7077 1.70ad 1.20525 1.7145 1.24263 1.719c 1.243ab",
    "1.7228 1.7235 1.7250 1.24608 1.7280 1.7295 1.24735 1.24814 1.737a 1.738b 1.3eac 1.73a5",
    "1.3eb8 1.3eb8 1.7447 1.745c 1.7471 1.7485 1.74ca 1.3f1b 1.7524 1.24c36 1.753e 1.24c92 1.7570",
    "1.2219f 1.7610 1.24fa1 1.24fb8 1.25044 1.3ffc 1.4008 1.76f4 1.250f3 1.250f2 1.25119 1.25133",
    "1.771e 1.771f 1.771f 1.774a 1.4039 1.778b 1.4046 1.4096 1.2541d 1.784e 1.788c 1.78cc 1.40e3",
    "1.25626 1.7956 1.2569a 1.256c5 1.798f 1.79eb 1.412f 1.7a40 1.7a4a 1.7a4f 1.2597c 1.25aa7",
    "1.25aa7 1.7aee 1.4202 1.25bab 1.7bc6 1.7bc9 1.4227 1.25c80 1.7cd2 1.42a0 1.7ce8 1.7ce3",
    "1.7d00 1.25f86 1.7d63 1.4301 1.7dc7 1.7e02 1.7e45 1.4334 1.26228 1.26247 1.4359 1.262d9",
    "1.7f7a 1.2633e 1.7f95 1.7ffa 1.8005 1.264da 1.26523 1.8060 1.265a8 1.8070 1.2335f 1.43d5",
    "1.80b2 1.8103 1.440b 1.813e 1.5ab5 1.267a7 1.267b5 1.23393 1.2339c 1.8201 1.8204 1.8f9e",
    "1.446b 1.8291 1.828b 1.829d 1.52b3 1.82b1 1.82b3 1.82bd 1.82e6 1.26b3c 1.82e5 1.831d 1.8363",
    "1.83ad 1.8323 1.83bd 1.83e7 1.8457 1.8353 1.83ca 1.83cc 1.83dc 1.26c36 1.26d6b 1.26cd5",
    "1.452b 1.84f1 1.84f3 1.8516 1.273ca 1.8564 1.26f2c 1.455d 1.4561 1.26fb1 1.270d2 1.456b",
    "1.8650 1.865c 1.8667 1.8669 1.86a9 1.8688 1.870e 1.86e2 1.8779 1.8728 1.876b 1.8786 1.45d7",
    "1.87e1 1.8801 1.45f9 1.8860 1.8863 1.27667 1.88d7 1.88de 1.4635 1.88fa 1.34bb 1.278ae",
    "1.27966 1.46be 1.46c7 1.8aa0 1.8aed 1.8b8a 1.8c55 1.27ca8 1.8cab 1.8cc1 1.8d1b 1.8d77",
    "1.27f2f 1.20804 1.8dcb 1.8dbc 1.8df0 1.208de 1.8ed4 1.8f38 1.285d2 1.285ed 1.9094 1.90f1",
    "1.9111 1.2872e 1.911b 1.9238 1.92d7 1.92d8 1.927c 1.93f9 1.9415 1.28bfa 1.958b 1.4995 1.95b7",
    "1.28d77 1.49e6 1.96c3 1.5db2 1.9723 1.29145 1.2921a 1.4a6e 1.4a76 1.97e0 1.2940a 1.4ab2",
    "1.29496 1.980b 1.980b 1.9829 1.295b6 1.98e2 1.4b33 1.9929 1.99a7 1.99c2 1.99fe 1.4bce",
    "1.29b30 1.9b12 1.9c40 1.9cfd 1.4cce 1.4ced 1.9d67 1.2a0ce 1.4cf8 1.2a105 1.2a20e 1.2a291",
    "1.9ebb 1.4d56 1.9ef9 1.9efe 1.9f05 1.9f0f 1.9f16 1.9f3b 1.2a600"]

/-- The entry of a code point among those from `low` on and before `high`. -/
private def decomposition? (code low high : Nat) : Option (List Char) :=
  if low < high then
    let middle := (low + high) / 2
    match decompositions[middle]? with
    | none => none
    | some (found, rest) =>
      if found == code then some rest
      else if found < code then decomposition? code (middle + 1) high
      else decomposition? code low middle
  else none
termination_by high - low

/-- The letters that a syllable of Hangul is composed of. -/
private def hangulLetters (code : Nat) : List Char :=
  let index := code - 0xAC00
  let leading := Char.ofNat (0x1100 + index / 588)
  let vowel := Char.ofNat (0x1161 + index % 588 / 28)
  if index % 28 == 0 then [leading, vowel]
  else [leading, vowel, Char.ofNat (0x11A7 + index % 28)]

/-- What is left of a character without its accents. -/
def unaccented (c : Char) : List Char :=
  let code := c.toNat
  if code < 0xC0 then [c]
  else if 0xAC00 ≤ code && code < 0xD7A4 then hangulLetters code
  else
    match decomposition? code 0 decompositions.size with
    | some rest => rest
    | none => if nonspacingSet.contains c then [] else [c]

end Text

end TextVectors
