/-! C text that is the same in every header and source. -/

namespace WasmLowering.C

def unlines (lines : List String) : String :=
  String.join (lines.map (· ++ "\n"))

def headerTopLines : List String :=
  ["#ifdef __cplusplus",
    "extern \"C\" \x7b",
    "#endif",
    "",
    "#include <stdint.h>",
    "",
    "#include \"wasm-rt.h\"",
    "",
    "#ifndef WASM_RT_MODULE_PREFIX",
    "#define WASM_RT_MODULE_PREFIX",
    "#endif",
    "",
    "#define WASM_RT_PASTE_(x, y) x ## y",
    "#define WASM_RT_PASTE(x, y) WASM_RT_PASTE_(x, y)",
    "#define WASM_RT_ADD_PREFIX(x) WASM_RT_PASTE(WASM_RT_MODULE_PREFIX, x)",
    "",
    "typedef uint8_t u8;",
    "typedef int8_t s8;",
    "typedef uint16_t u16;",
    "typedef int16_t s16;",
    "typedef uint32_t u32;",
    "typedef int32_t s32;",
    "typedef uint64_t u64;",
    "typedef int64_t s64;",
    "typedef float f32;",
    "typedef double f64;",
    "",
    "extern void WASM_RT_ADD_PREFIX(init)(void);"]

def headerBottomLines : List String :=
  ["#ifdef __cplusplus",
    "\x7d",
    "#endif"]

def includeLines : List String :=
  ["#include <assert.h>",
    "#include <math.h>",
    "#include <stdlib.h>",
    "#include <string.h>"]

def helperLines : List String :=
  ["#define UNLIKELY(x) __builtin_expect(!!(x), 0)",
    "#define LIKELY(x) __builtin_expect(!!(x), 1)",
    "",
    "#define TRAP(x) (wasm_rt_trap(WASM_RT_TRAP_##x), 0)",
    "",
    "#define FUNC_PROLOGUE                                            \\",
    "  if (++wasm_rt_call_stack_depth > WASM_RT_MAX_CALL_STACK_DEPTH) \\",
    "    TRAP(EXHAUSTION)",
    "",
    "#define FUNC_EPILOGUE --wasm_rt_call_stack_depth",
    "",
    "#define UNREACHABLE TRAP(UNREACHABLE)",
    "",
    "#define CALL_INDIRECT(table, t, ft, x, ...)          \\",
    "  (LIKELY((x) < table.size && table.data[x].func &&  \\",
    "          table.data[x].func_type == func_types[ft]) \\",
    "       ? ((t)table.data[x].func)(__VA_ARGS__)        \\",
    "       : TRAP(CALL_INDIRECT))",
    "",
    "#define MEMCHECK(mem, a, t)  \\",
    "  if (UNLIKELY((a) + sizeof(t) > mem->size)) TRAP(OOB)",
    "",
    "#define DEFINE_LOAD(name, t1, t2, t3)                           \\",
    "  static inline t3 name(wasm_rt_memory_t* mem, u64 addr) \x7b     \\",
    "    MEMCHECK(mem, addr, t1);                                    \\",
    "    t1 result;                                                  \\",
    "    memcpy(&result, &mem->data[addr], sizeof(t1));              \\",
    "    return (t3)(t2)result;                                      \\",
    "  \x7d",
    "",
    "#define DEFINE_STORE(name, t1, t2)                                     \\",
    "  static inline void name(wasm_rt_memory_t* mem, u64 addr, t2 value) \x7b \\",
    "    MEMCHECK(mem, addr, t1);                                           \\",
    "    t1 wrapped = (t1)value;                                            \\",
    "    memcpy(&mem->data[addr], &wrapped, sizeof(t1));                    \\",
    "  \x7d",
    "",
    "DEFINE_LOAD(i32_load, u32, u32, u32);",
    "DEFINE_LOAD(i64_load, u64, u64, u64);",
    "DEFINE_LOAD(f32_load, f32, f32, f32);",
    "DEFINE_LOAD(f64_load, f64, f64, f64);",
    "DEFINE_LOAD(i32_load8_s, s8, s32, u32);",
    "DEFINE_LOAD(i64_load8_s, s8, s64, u64);",
    "DEFINE_LOAD(i32_load8_u, u8, u32, u32);",
    "DEFINE_LOAD(i64_load8_u, u8, u64, u64);",
    "DEFINE_LOAD(i32_load16_s, s16, s32, u32);",
    "DEFINE_LOAD(i64_load16_s, s16, s64, u64);",
    "DEFINE_LOAD(i32_load16_u, u16, u32, u32);",
    "DEFINE_LOAD(i64_load16_u, u16, u64, u64);",
    "DEFINE_LOAD(i64_load32_s, s32, s64, u64);",
    "DEFINE_LOAD(i64_load32_u, u32, u64, u64);",
    "DEFINE_STORE(i32_store, u32, u32);",
    "DEFINE_STORE(i64_store, u64, u64);",
    "DEFINE_STORE(f32_store, f32, f32);",
    "DEFINE_STORE(f64_store, f64, f64);",
    "DEFINE_STORE(i32_store8, u8, u32);",
    "DEFINE_STORE(i32_store16, u16, u32);",
    "DEFINE_STORE(i64_store8, u8, u64);",
    "DEFINE_STORE(i64_store16, u16, u64);",
    "DEFINE_STORE(i64_store32, u32, u64);",
    "",
    "static inline void memory_fill(wasm_rt_memory_t* mem, u32 d, u32 val, u32 n) \x7b",
    "  if (UNLIKELY((u64)d + n > mem->size)) TRAP(OOB);",
    "  memset(mem->data + d, (int)(u8)val, n);",
    "\x7d",
    "",
    "static inline void memory_copy(wasm_rt_memory_t* dst, const wasm_rt_memory_t* src,",
    "                               u32 d, u32 s, u32 n) \x7b",
    "  if (UNLIKELY((u64)d + n > dst->size || (u64)s + n > src->size)) TRAP(OOB);",
    "  memmove(dst->data + d, src->data + s, n);",
    "\x7d",
    "",
    "#define I32_CLZ(x) ((x) ? __builtin_clz(x) : 32)",
    "#define I64_CLZ(x) ((x) ? __builtin_clzll(x) : 64)",
    "#define I32_CTZ(x) ((x) ? __builtin_ctz(x) : 32)",
    "#define I64_CTZ(x) ((x) ? __builtin_ctzll(x) : 64)",
    "#define I32_POPCNT(x) (__builtin_popcount(x))",
    "#define I64_POPCNT(x) (__builtin_popcountll(x))",
    "",
    "#define DIV_S(ut, min, x, y)                                 \\",
    "   ((UNLIKELY((y) == 0)) ?                TRAP(DIV_BY_ZERO)  \\",
    "  : (UNLIKELY((x) == min && (y) == -1)) ? TRAP(INT_OVERFLOW) \\",
    "  : (ut)((x) / (y)))",
    "",
    "#define REM_S(ut, min, x, y)                                \\",
    "   ((UNLIKELY((y) == 0)) ?                TRAP(DIV_BY_ZERO) \\",
    "  : (UNLIKELY((x) == min && (y) == -1)) ? 0                 \\",
    "  : (ut)((x) % (y)))",
    "",
    "#define I32_DIV_S(x, y) DIV_S(u32, INT32_MIN, (s32)x, (s32)y)",
    "#define I64_DIV_S(x, y) DIV_S(u64, INT64_MIN, (s64)x, (s64)y)",
    "#define I32_REM_S(x, y) REM_S(u32, INT32_MIN, (s32)x, (s32)y)",
    "#define I64_REM_S(x, y) REM_S(u64, INT64_MIN, (s64)x, (s64)y)",
    "",
    "#define DIVREM_U(op, x, y) \\",
    "  ((UNLIKELY((y) == 0)) ? TRAP(DIV_BY_ZERO) : ((x) op (y)))",
    "",
    "#define DIV_U(x, y) DIVREM_U(/, x, y)",
    "#define REM_U(x, y) DIVREM_U(%, x, y)",
    "",
    "#define ROTL(x, y, mask) \\",
    "  (((x) << ((y) & (mask))) | ((x) >> (((mask) - (y) + 1) & (mask))))",
    "#define ROTR(x, y, mask) \\",
    "  (((x) >> ((y) & (mask))) | ((x) << (((mask) - (y) + 1) & (mask))))",
    "",
    "#define I32_ROTL(x, y) ROTL(x, y, 31)",
    "#define I64_ROTL(x, y) ROTL(x, y, 63)",
    "#define I32_ROTR(x, y) ROTR(x, y, 31)",
    "#define I64_ROTR(x, y) ROTR(x, y, 63)",
    "",
    "#define FMIN(x, y)                                          \\",
    "   ((UNLIKELY((x) != (x))) ? NAN                            \\",
    "  : (UNLIKELY((y) != (y))) ? NAN                            \\",
    "  : (UNLIKELY((x) == 0 && (y) == 0)) ? (signbit(x) ? x : y) \\",
    "  : (x < y) ? x : y)",
    "",
    "#define FMAX(x, y)                                          \\",
    "   ((UNLIKELY((x) != (x))) ? NAN                            \\",
    "  : (UNLIKELY((y) != (y))) ? NAN                            \\",
    "  : (UNLIKELY((x) == 0 && (y) == 0)) ? (signbit(x) ? y : x) \\",
    "  : (x > y) ? x : y)",
    "",
    "#define TRUNC_S(ut, st, ft, min, max, maxop, x)                             \\",
    "   ((UNLIKELY((x) != (x))) ? TRAP(INVALID_CONVERSION)                       \\",
    "  : (UNLIKELY((x) < (ft)(min) || (x) maxop (ft)(max))) ? TRAP(INT_OVERFLOW) \\",
    "  : (ut)(st)(x))",
    "",
    "#define I32_TRUNC_S_F32(x) TRUNC_S(u32, s32, f32, INT32_MIN, INT32_MAX, >=, x)",
    "#define I64_TRUNC_S_F32(x) TRUNC_S(u64, s64, f32, INT64_MIN, INT64_MAX, >=, x)",
    "#define I32_TRUNC_S_F64(x) TRUNC_S(u32, s32, f64, INT32_MIN, INT32_MAX, >,  x)",
    "#define I64_TRUNC_S_F64(x) TRUNC_S(u64, s64, f64, INT64_MIN, INT64_MAX, >=, x)",
    "",
    "#define TRUNC_U(ut, ft, max, maxop, x)                                    \\",
    "   ((UNLIKELY((x) != (x))) ? TRAP(INVALID_CONVERSION)                     \\",
    "  : (UNLIKELY((x) <= (ft)-1 || (x) maxop (ft)(max))) ? TRAP(INT_OVERFLOW) \\",
    "  : (ut)(x))",
    "",
    "#define I32_TRUNC_U_F32(x) TRUNC_U(u32, f32, UINT32_MAX, >=, x)",
    "#define I64_TRUNC_U_F32(x) TRUNC_U(u64, f32, UINT64_MAX, >=, x)",
    "#define I32_TRUNC_U_F64(x) TRUNC_U(u32, f64, UINT32_MAX, >,  x)",
    "#define I64_TRUNC_U_F64(x) TRUNC_U(u64, f64, UINT64_MAX, >=, x)",
    "",
    "#define TRUNC_SAT_S(ut, st, ft, min, max, x)     \\",
    "   ((UNLIKELY((x) != (x))) ? (ut)0               \\",
    "  : (UNLIKELY((x) < (ft)(min))) ? (ut)(st)(min)  \\",
    "  : (UNLIKELY((x) >= (ft)(max))) ? (ut)(st)(max) \\",
    "  : (ut)(st)(x))",
    "",
    "#define I32_TRUNC_SAT_S_F32(x) TRUNC_SAT_S(u32, s32, f32, INT32_MIN, INT32_MAX, x)",
    "#define I64_TRUNC_SAT_S_F32(x) TRUNC_SAT_S(u64, s64, f32, INT64_MIN, INT64_MAX, x)",
    "#define I32_TRUNC_SAT_S_F64(x) TRUNC_SAT_S(u32, s32, f64, INT32_MIN, INT32_MAX, x)",
    "#define I64_TRUNC_SAT_S_F64(x) TRUNC_SAT_S(u64, s64, f64, INT64_MIN, INT64_MAX, x)",
    "",
    "#define TRUNC_SAT_U(ut, ft, max, x)               \\",
    "   ((UNLIKELY((x) != (x))) ? (ut)0                \\",
    "  : (UNLIKELY((x) <= (ft)-1)) ? (ut)0             \\",
    "  : (UNLIKELY((x) >= (ft)(max))) ? (ut)(max)      \\",
    "  : (ut)(x))",
    "",
    "#define I32_TRUNC_SAT_U_F32(x) TRUNC_SAT_U(u32, f32, UINT32_MAX, x)",
    "#define I64_TRUNC_SAT_U_F32(x) TRUNC_SAT_U(u64, f32, UINT64_MAX, x)",
    "#define I32_TRUNC_SAT_U_F64(x) TRUNC_SAT_U(u32, f64, UINT32_MAX, x)",
    "#define I64_TRUNC_SAT_U_F64(x) TRUNC_SAT_U(u64, f64, UINT64_MAX, x)",
    "",
    "#define DEFINE_REINTERPRET(name, t1, t2)  \\",
    "  static inline t2 name(t1 x) \x7b           \\",
    "    t2 result;                            \\",
    "    memcpy(&result, &x, sizeof(result));  \\",
    "    return result;                        \\",
    "  \x7d",
    "",
    "DEFINE_REINTERPRET(f32_reinterpret_i32, u32, f32)",
    "DEFINE_REINTERPRET(i32_reinterpret_f32, f32, u32)",
    "DEFINE_REINTERPRET(f64_reinterpret_i64, u64, f64)",
    "DEFINE_REINTERPRET(i64_reinterpret_f64, f64, u64)",
    ""]

def headerTop : String := unlines headerTopLines

def headerBottom : String := unlines headerBottomLines

def includes : String := unlines includeLines

def helpers : String := unlines helperLines

end WasmLowering.C
