import Libcperciva.Alg.CountedModel

/-!
# MD5, `alg/md5.c`
-/

namespace Libcperciva.Alg.Md5Model

open Libcperciva.Lib.FinLiterals
open Libcperciva.Util.Sysendian
open Libcperciva.Alg.CountedModel

/-- `MD5_CTX`. -/
abbrev Md5Ctx := CountedCtx 4

/-! ## Elementary functions -/

def ROTL (x n : UInt32) : UInt32 := x <<< n ||| x >>> (32 - n)

def F (x y z : UInt32) : UInt32 := (x &&& (y ^^^ z)) ^^^ z

def G (x y z : UInt32) : UInt32 := (z &&& (x ^^^ y)) ^^^ y

def H (x y z : UInt32) : UInt32 := x ^^^ y ^^^ z

def I (x y z : UInt32) : UInt32 := (x ||| ~~~z) ^^^ y

/-! ## Round functions, on the words of `S` with the given numbers -/

def step (f : UInt32 → UInt32 → UInt32 → UInt32) (S : Fin 4 → UInt32)
    (a b c d : Fin 4) (x s : UInt32) : Fin 4 → UInt32 :=
  Function.update S a (S b + ROTL (S a + f (S b) (S c) (S d) + x) s)

def FF := step F

def GG := step G

def HH := step H

def II := step I

/-- A round function for a rotating state, with word `k` of the message. -/
def stepr (op : (Fin 4 → UInt32) → Fin 4 → Fin 4 → Fin 4 → Fin 4 → UInt32 →
      UInt32 → Fin 4 → UInt32)
    (k : Nat) (S : Fin 4 → UInt32) (W : Fin 16 → UInt32) (i : Nat)
    (s T : UInt32) : Fin 4 → UInt32 :=
  op S (Fin.ofNat 4 (64 - i)) (Fin.ofNat 4 (65 - i)) (Fin.ofNat 4 (66 - i))
    (Fin.ofNat 4 (67 - i)) (W (Fin.ofNat 16 k) + T) s

def FFr (S : Fin 4 → UInt32) (W : Fin 16 → UInt32) (i : Nat)
    (s T : UInt32) : Fin 4 → UInt32 :=
  stepr FF (i * 1 + 0) S W i s T

def GGr (S : Fin 4 → UInt32) (W : Fin 16 → UInt32) (i : Nat)
    (s T : UInt32) : Fin 4 → UInt32 :=
  stepr GG (i * 5 + 1) S W i s T

def HHr (S : Fin 4 → UInt32) (W : Fin 16 → UInt32) (i : Nat)
    (s T : UInt32) : Fin 4 → UInt32 :=
  stepr HH (i * 3 + 5) S W i s T

def IIr (S : Fin 4 → UInt32) (W : Fin 16 → UInt32) (i : Nat)
    (s T : UInt32) : Fin 4 → UInt32 :=
  stepr II (i * 7 + 0) S W i s T

/-! ## Blocks -/

/-- The arguments `i`, `s` and `T` of the calls of `FFr`. -/
def ffCalls : List (Nat × UInt32 × UInt32) :=
  [(0, 7, 0xd76aa478), (1, 12, 0xe8c7b756),
    (2, 17, 0x242070db), (3, 22, 0xc1bdceee),
    (4, 7, 0xf57c0faf), (5, 12, 0x4787c62a),
    (6, 17, 0xa8304613), (7, 22, 0xfd469501),
    (8, 7, 0x698098d8), (9, 12, 0x8b44f7af),
    (10, 17, 0xffff5bb1), (11, 22, 0x895cd7be),
    (12, 7, 0x6b901122), (13, 12, 0xfd987193),
    (14, 17, 0xa679438e), (15, 22, 0x49b40821)]

/-- The arguments of the calls of `GGr`. -/
def ggCalls : List (Nat × UInt32 × UInt32) :=
  [(16, 5, 0xf61e2562), (17, 9, 0xc040b340),
    (18, 14, 0x265e5a51), (19, 20, 0xe9b6c7aa),
    (20, 5, 0xd62f105d), (21, 9, 0x02441453),
    (22, 14, 0xd8a1e681), (23, 20, 0xe7d3fbc8),
    (24, 5, 0x21e1cde6), (25, 9, 0xc33707d6),
    (26, 14, 0xf4d50d87), (27, 20, 0x455a14ed),
    (28, 5, 0xa9e3e905), (29, 9, 0xfcefa3f8),
    (30, 14, 0x676f02d9), (31, 20, 0x8d2a4c8a)]

/-- The arguments of the calls of `HHr`. -/
def hhCalls : List (Nat × UInt32 × UInt32) :=
  [(32, 4, 0xfffa3942), (33, 11, 0x8771f681),
    (34, 16, 0x6d9d6122), (35, 23, 0xfde5380c),
    (36, 4, 0xa4beea44), (37, 11, 0x4bdecfa9),
    (38, 16, 0xf6bb4b60), (39, 23, 0xbebfbc70),
    (40, 4, 0x289b7ec6), (41, 11, 0xeaa127fa),
    (42, 16, 0xd4ef3085), (43, 23, 0x04881d05),
    (44, 4, 0xd9d4d039), (45, 11, 0xe6db99e5),
    (46, 16, 0x1fa27cf8), (47, 23, 0xc4ac5665)]

/-- The arguments of the calls of `IIr`. -/
def iiCalls : List (Nat × UInt32 × UInt32) :=
  [(48, 6, 0xf4292244), (49, 10, 0x432aff97),
    (50, 15, 0xab9423a7), (51, 21, 0xfc93a039),
    (52, 6, 0x655b59c3), (53, 10, 0x8f0ccc92),
    (54, 15, 0xffeff47d), (55, 21, 0x85845dd1),
    (56, 6, 0x6fa87e4f), (57, 10, 0xfe2ce6e0),
    (58, 15, 0xa3014314), (59, 21, 0x4e0811a1),
    (60, 6, 0xf7537e82), (61, 10, 0xbd3af235),
    (62, 15, 0x2ad7d2bb), (63, 21, 0xeb86d391)]

/-- Calls of a round function, one after the other. -/
def calls (opr : (Fin 4 → UInt32) → (Fin 16 → UInt32) → Nat → UInt32 →
      UInt32 → Fin 4 → UInt32)
    (W : Fin 16 → UInt32) (arguments : List (Nat × UInt32 × UInt32))
    (S : Fin 4 → UInt32) : Fin 4 → UInt32 :=
  arguments.foldl (fun S (i, s, T) => opr S W i s T) S

/-- `MD5_Transform`. -/
def md5Transform (state : Fin 4 → UInt32) (block : List UInt8) :
    Fin 4 → UInt32 :=
  let W := decVect le32dec block
  let S := calls FFr W ffCalls state
  let S := calls GGr W ggCalls S
  let S := calls HHr W hhCalls S
  let S := calls IIr W iiCalls S
  fun i => state i + S i

/-! ## The interface -/

/-- `MD5_Init`. -/
def md5Init (ctx : Md5Ctx) : Md5Ctx :=
  { ctx with
    count := ![0, 0]
    state := ![0x67452301, 0xEFCDAB89, 0x98BADCFE, 0x10325476] }

/-- `MD5_Update`. -/
def md5Update : Md5Ctx → List UInt8 → Md5Ctx := update md5Transform 0 1

/-- `MD5_Final`. -/
def md5Final : Md5Ctx → List UInt8 × Md5Ctx := final md5Transform 0 1 le32enc

/-- `MD5_Buf`. -/
def md5Buf (ctx : Md5Ctx) (src : List UInt8) : List UInt8 :=
  (md5Final (md5Update (md5Init ctx) src)).1

end Libcperciva.Alg.Md5Model
